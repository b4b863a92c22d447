import FrontDoor.Address.Ip

/-!
# Socket addresses

A socket address is an IP address with a port. An IPv6 address stands in brackets, with its scope if
it has one.
-/

namespace FrontDoor

/-- An address that a service can listen on. -/
inductive SocketAddress where
  | v4 (ip : Ipv4) (port : UInt16)
  | v6 (ip : Ipv6) (scope : UInt32) (port : UInt16)
  deriving DecidableEq, Repr

namespace SocketAddress

def port : SocketAddress → UInt16
  | .v4 _ port => port
  | .v6 _ _ port => port

def withPort (port : UInt16) : SocketAddress → SocketAddress
  | .v4 ip _ => .v4 ip port
  | .v6 ip scope _ => .v6 ip scope port

/-- A colon and a port at the end of a text. -/
def readPort? (cs : List Char) : Option UInt16 := do
  let cs ← expectChar? ':' cs
  let (n, rest) ← readBounded? 10 65535 none true cs
  if rest.isEmpty then some (UInt16.ofNat n) else none

/-- An address with an IPv4 address in front. -/
def readV4? (cs : List Char) : Option SocketAddress := do
  let (ip, cs) ← Ipv4.read? cs
  let port ← readPort? cs
  some (.v4 ip port)

/-- A scope at the front of a text; without one it is zero. -/
def readScope (cs : List Char) : Nat × List Char :=
  ((expectChar? '%' cs).bind (readBounded? 10 4294967295 none true)).getD (0, cs)

/-- An address with an IPv6 address in front. -/
def readV6? (cs : List Char) : Option SocketAddress := do
  let cs ← expectChar? '[' cs
  let (ip, cs) ← Ipv6.read? cs
  let (scope, cs) := readScope cs
  let cs ← expectChar? ']' cs
  let port ← readPort? cs
  some (.v6 ip (UInt32.ofNat scope) port)

def read? (s : String) : Option SocketAddress := (readV4? s.toList).or (readV6? s.toList)

def text : SocketAddress → String
  | .v4 ip port => ip.text ++ ":" ++ Digits.decimal port.toNat
  | .v6 ip scope port =>
    let scope := if scope = 0 then "" else "%" ++ Digits.decimal scope.toNat
    "[" ++ ip.text ++ scope ++ "]:" ++ Digits.decimal port.toNat

end SocketAddress

end FrontDoor
