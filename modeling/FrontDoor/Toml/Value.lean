import FrontDoor.Toml.Names
import FrontDoor.Toml.Scalar

/-!
# Keys and values in TOML

Of an array, a table or a date only its kind is kept; what stands in it is read all the same, since
a mistake there makes the whole text no TOML.
-/

namespace FrontDoor.Toml

inductive Value where
  | string (s : String)
  | integer (i : Int)
  | float (x : Binary64)
  | boolean (b : Bool)
  | dateTime
  | array
  | table
  deriving DecidableEq, Repr

/-- A stretch of a text: what is left of the text where it begins and where it ends. -/
structure Place where
  start : List Char
  stop : List Char
  deriving DecidableEq

/-- One part of a key, and where it stands. -/
structure KeyPart where
  name : String
  place : Place
  deriving DecidableEq

/-- How many parts a key may have. -/
def maxKeyParts : Nat := 79

/-- How deep arrays and tables may stand within each other. -/
def maxDepth : Nat := 79

/-- The characters of a key without quotes. -/
def isKeyChar (c : Char) : Bool := c.isAlphanum || c = '-' || c = '_'

/-! ## Keys -/

/-- One part of a key, and what follows it. -/
def readKeyPart? : List Char → Option (String × List Char)
  | '"' :: cs => readBasicOnto [] cs
  | '\'' :: cs => readLiteralOnto [] cs
  | cs =>
    let name := cs.takeWhile isKeyChar
    if name.isEmpty then none else some (String.ofList name, cs.dropWhile isKeyChar)

/-- The parts of a key with dots between them, at most `fuel`, and the blanks around them. -/
def readKeyParts? : Nat → List Char → Option (List KeyPart × List Char)
  | 0, _ => none
  | fuel + 1, cs =>
    let start := skipBlanks cs
    match readKeyPart? start with
    | none => none
    | some (name, stop) =>
      let part : KeyPart := ⟨name, start, stop⟩
      match skipBlanks stop with
      | '.' :: rest => (readKeyParts? fuel rest).map fun r => (part :: r.1, r.2)
      | rest => some ([part], rest)

/-- A key: the names of the tables on the way, the last name, and where the first one stands. -/
structure Key where
  first : KeyPart
  path : List String
  last : String
  deriving DecidableEq

def readKey? (cs : List Char) : Option (Key × List Char) :=
  match readKeyParts? maxKeyParts cs with
  | some (first :: more, rest) =>
    let names := (first :: more).map KeyPart.name
    some (⟨first, names.dropLast, names.getLastD ""⟩, rest)
  | _ => none

/-! ## Values -/

/-- A value that does not hold others, and what follows it. -/
def readScalar? (cs : List Char) : Option (Value × List Char) :=
  match cs with
  | 't' :: 'r' :: 'u' :: 'e' :: rest => some (.boolean true, rest)
  | 'f' :: 'a' :: 'l' :: 's' :: 'e' :: rest => some (.boolean false, rest)
  | _ =>
    match readString? cs with
    | some (s, rest) => some (.string s, rest)
    | none =>
      match skipDateTime? cs with
      | some rest => some (.dateTime, rest)
      | none =>
        match readFloat? cs with
        | some (x, rest) => some (.float x, rest)
        | none => (readInteger? cs).map fun r => (.integer r.1, r.2)

/-- What follows the items of an array, behind its bracket. An item is what `item` reads; a comma
may follow the last. -/
def skipItems? (item : List Char → Option (Value × List Char)) : Nat → List Char →
    Option (List Char)
  | 0, _ => none
  | fuel + 1, cs =>
    match skipFiller false cs with
    | ']' :: rest => some rest
    | start =>
      match item start with
      | none => none
      | some (_, rest) =>
        match skipFiller false rest with
        | ',' :: rest => skipItems? item fuel rest
        | ']' :: rest => some rest
        | _ => none

/-- What follows the members of a table in braces, behind those named already. They stand on one
line, each behind a comma but the first. -/
def skipMembers? (item : List Char → Option (Value × List Char)) : Nat → Names → List Char →
    Option (List Char)
  | 0, _, _ => none
  | fuel + 1, names, cs => do
    let (key, rest) ← readKey? cs
    let rest ← expectChar? '=' rest
    let (_, rest) ← item (skipBlanks rest)
    let names ← names.addValue [] key.path key.last
    match skipBlanks rest with
    | ',' :: rest => skipMembers? item fuel names rest
    | '\x7d' :: rest => some rest
    | _ => none

/-- A value at the front of a text, and what follows it. Values stand at most `depth` deep in it. -/
def readValue? : Nat → List Char → Option (Value × List Char)
  | 0, cs => readScalar? cs
  | depth + 1, cs =>
    match cs with
    | '[' :: rest =>
      (skipItems? (readValue? depth) cs.length rest).map fun after => (.array, after)
    | '\x7b' :: rest =>
      match skipBlanks rest with
      | '\x7d' :: after => some (.table, after)
      | _ => (skipMembers? (readValue? depth) cs.length [] rest).map fun after => (.table, after)
    | _ => readScalar? cs

end FrontDoor.Toml
