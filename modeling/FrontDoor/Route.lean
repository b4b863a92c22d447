import FrontDoor.Http.Percent

/-!
# Routes

The path of a request target is decoded once, and the decoded text selects what answers it. The
key of a request is the third of exactly three segments.
-/

namespace FrontDoor

inductive Route where
  | key
  | join
  | status
  | unknown
  deriving DecidableEq, Repr

/-- A decoded path: its text, and whether its bytes were UTF-8. -/
structure DecodedPath where
  text : List Char
  valid : Bool
  deriving DecidableEq, Repr

namespace Route

/-- Everything under the key prefix is about keys; the other endpoints are single paths. -/
def resolve (path : List Char) : Route :=
  if "/key".toList.isPrefixOf path then .key
  else if path = "/join".toList then .join
  else if path = "/status".toList then .status
  else .unknown

/-- The decoded text of a raw path. Where the bytes are not UTF-8, every ill-formed stretch is
replaced. -/
def readPath (raw : Bytes) : DecodedPath :=
  match Percent.text? raw with
  | some text => ⟨text, true⟩
  | none => ⟨Utf8.lossy (Percent.decode raw), false⟩

/-- The parts of a path between its slashes. -/
def segments (path : List Char) : List (List Char) :=
  let parts := path.foldr
    (fun c parts => if c = '/' then ([], parts.1 :: parts.2) else (c :: parts.1, parts.2))
    (([] : List Char), ([] : List (List Char)))
  parts.1 :: parts.2

/-- The third of exactly three segments, and otherwise nothing. The second is not looked at. -/
def keyOfPath (path : List Char) : List Char :=
  match segments path with
  | [_, _, third] => third
  | _ => []

/-- The key that a decoded path carries. A path that is not UTF-8 carries none. -/
def keyOf (path : DecodedPath) : List Char :=
  if path.valid then keyOfPath path.text else []

end Route

end FrontDoor
