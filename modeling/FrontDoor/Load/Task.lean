import FrontDoor.Address.Ip
import FrontDoor.Http.Message
import FrontDoor.Json.Writer
import FrontDoor.Load.Plan
import FrontDoor.Load.Uuid

/-!
# Tasks of a user

A user writes a fresh identifier under a key that is its beginning, or reads a key that is the
beginning of another identifier. Either is one request to the node that the plan names.
-/

namespace FrontDoor

inductive TaskKind where
  | write
  | read
  deriving DecidableEq, Repr

/-- A task, with the identifier drawn for it. -/
structure LoadTask where
  kind : TaskKind
  uuid : Uuid
  deriving DecidableEq, Repr

namespace LoadPlan

/-- The target without slashes at its end. -/
def base (p : LoadPlan) : List Char :=
  (p.target.toList.reverse.dropWhile (· = '/')).reverse

/-- Whether a text is empty or a colon with a port number, which may be left out. -/
def isPortPart : List Char → Bool
  | [] => true
  | ':' :: cs => (Digits.value? 10 Digits.decimalDigit? cs).any (· ≤ 65535)
  | _ => false

/-- Whether a text names a host, and perhaps a port. An IPv6 address stands in brackets and has no
scope. -/
def isAuthority : List Char → Bool
  | '[' :: cs =>
    match Ipv6.read? cs with
    | some (_, ']' :: rest) => isPortPart rest
    | _ => false
  | cs =>
    let host := cs.takeWhile (· ≠ ':')
    !host.isEmpty && isPortPart (cs.drop host.length)

/-- Whether the target names a node that can be reached by HTTP. -/
def namesNode (p : LoadPlan) : Bool :=
  let scheme := "http://".toList
  let authority := (p.base.drop scheme.length).takeWhile fun c => c ≠ '/' && c ≠ '?' && c ≠ '#'
  scheme.isPrefixOf p.base && isAuthority authority

def key (p : LoadPlan) (t : LoadTask) : String := t.uuid.shortened p.keyLength.toNat

/-- Where the request of a task goes. -/
def url (p : LoadPlan) (t : LoadTask) : List Char :=
  match t.kind with
  | .write => p.base ++ "/key".toList
  | .read => p.base ++ "/key/".toList ++ (p.key t).toList

/-- The method of the request of a task. -/
def method (t : LoadTask) : String :=
  match t.kind with
  | .write => "POST"
  | .read => "GET"

/-- The body of the request of a task. -/
def body (p : LoadPlan) (t : LoadTask) : Bytes :=
  match t.kind with
  | .write => Json.stringObject Utf8.encode [(p.key t, t.uuid.text)]
  | .read => []

def request? (p : LoadPlan) (t : LoadTask) : Option Request :=
  if p.namesNode then
    (Request.read (Json.asciiBytes (method t)) (Utf8.encode (p.url t)) (p.body t)).toOption
  else none

end LoadPlan

end FrontDoor
