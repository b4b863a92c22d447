import FrontDoor.Text.Front

/-!
# IP addresses

IPv4 addresses are four decimal numbers, IPv6 addresses eight hexadecimal groups, of which the first
longest run of zeros is left out. The last two groups may be read as an IPv4 address, and are
written so in addresses that stand for one.
-/

namespace FrontDoor

structure Ipv4 where
  a : UInt8
  b : UInt8
  c : UInt8
  d : UInt8
  deriving DecidableEq, Repr

/-- An IPv6 address: eight groups. -/
structure Ipv6 where
  groups : List UInt16
  eight : groups.length = 8
  deriving DecidableEq, Repr

namespace Ipv4

/-- An octet: at most three digits, without leading zeros. -/
def readOctet? (cs : List Char) : Option (UInt8 × List Char) :=
  (readBounded? 10 255 (some 3) false cs).map fun r => (UInt8.ofNat r.1, r.2)

/-- An address at the front of a text, and what follows it. -/
def read? (cs : List Char) : Option (Ipv4 × List Char) := do
  let (a, cs) ← readOctet? cs
  let cs ← expectChar? '.' cs
  let (b, cs) ← readOctet? cs
  let cs ← expectChar? '.' cs
  let (c, cs) ← readOctet? cs
  let cs ← expectChar? '.' cs
  let (d, cs) ← readOctet? cs
  some (⟨a, b, c, d⟩, cs)

def text (ip : Ipv4) : String :=
  ".".intercalate ([ip.a, ip.b, ip.c, ip.d].map fun o => Digits.decimal o.toNat)

/-- The two groups that an address makes at the end of another. -/
def groups (ip : Ipv4) : List UInt16 :=
  [UInt16.ofNat (ip.a.toNat * 256 + ip.b.toNat), UInt16.ofNat (ip.c.toNat * 256 + ip.d.toNat)]

def ofGroups (high low : UInt16) : Ipv4 :=
  ⟨UInt8.ofNat (high.toNat / 256), UInt8.ofNat (high.toNat % 256),
    UInt8.ofNat (low.toNat / 256), UInt8.ofNat (low.toNat % 256)⟩

end Ipv4

namespace Ipv6

/-- Groups at the front of a text. -/
structure Run where
  groups : List UInt16
  /-- Whether the last two were written as an IPv4 address. -/
  endsInIpv4 : Bool
  rest : List Char

/-- What a reader reads behind a colon, or at once when it is the first. -/
def behindColon {α : Type} (first : Bool) (read : List Char → Option α) (cs : List Char) :
    Option α :=
  if first then read cs else (expectChar? ':' cs).bind read

/-- As many groups as there are, but at most `n`. An IPv4 address stands for two and is the last. -/
def readGroups (first : Bool) : Nat → List Char → Run
  | 0, cs => ⟨[], false, cs⟩
  | n + 1, cs =>
    match if n = 0 then none else behindColon first Ipv4.read? cs with
    | some (ip, rest) => ⟨ip.groups, true, rest⟩
    | none =>
      match behindColon first (readBounded? 16 65535 (some 4) true) cs with
      | some (g, rest) =>
        let run := readGroups false n rest
        { run with groups := UInt16.ofNat g :: run.groups }
      | none => ⟨[], false, cs⟩

/-- An address at the front of a text, and what follows it. Two colons stand for at least one group
of zeros, and an IPv4 address cannot stand before them. -/
def read? (cs : List Char) : Option (Ipv6 × List Char) :=
  let head := readGroups true 8 cs
  if h : head.groups.length = 8 then some (⟨head.groups, h⟩, head.rest)
  else if head.endsInIpv4 then none
  else
    match head.rest with
    | ':' :: ':' :: rest =>
      let tail := readGroups true (7 - head.groups.length) rest
      let zeros := List.replicate (8 - head.groups.length - tail.groups.length) 0
      let groups := head.groups ++ zeros ++ tail.groups
      if h : groups.length = 8 then some (⟨groups, h⟩, tail.rest) else none
    | _ => none

/-- Where the first longest run of zeros begins, and its length. -/
def longestZeros (groups : List UInt16) : Nat × Nat :=
  (List.range groups.length).foldl (fun best i =>
    let n := ((groups.drop i).takeWhile (· = 0)).length
    if best.2 < n then (i, n) else best) (0, 0)

/-- Groups with colons between them. -/
def joinGroups (groups : List UInt16) : String :=
  ":".intercalate (groups.map fun g => String.ofList (Digits.hex g.toNat))

def text (ip : Ipv6) : String :=
  match ip.groups with
  | [0, 0, 0, 0, 0, 0xFFFF, high, low] => "::ffff:" ++ (Ipv4.ofGroups high low).text
  | groups =>
    let (start, n) := longestZeros groups
    if 1 < n then joinGroups (groups.take start) ++ "::" ++ joinGroups (groups.drop (start + n))
    else joinGroups groups

end Ipv6

end FrontDoor
