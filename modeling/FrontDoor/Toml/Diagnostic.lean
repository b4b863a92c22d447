import FrontDoor.Toml.Value

/-!
# Pointing at a place

A complaint about a value names its line and column, shows the line, and underlines the value as far
as it stands on this line. Columns count characters; the underline has a mark for each byte.
-/

namespace FrontDoor.Toml

/-- The number of bytes of a text. -/
def byteLength (cs : List Char) : Nat := cs.foldl (fun n c => n + c.utf8Size) 0

/-- Where in its text a place begins, and the line it begins on. -/
structure Position where
  /-- The number of the line, counted from one. -/
  line : Nat
  /-- The number of characters before it on the line. -/
  column : Nat
  /-- The line, without its line feed. -/
  content : List Char

/-- The part of a text before a place. -/
def Place.before (text : List Char) (p : Place) : List Char :=
  text.take (text.length - p.start.length)

/-- The position of a place in its text. -/
def Place.position (text : List Char) (p : Place) : Position :=
  let before := p.before text
  let onLine := (before.reverse.takeWhile (· ≠ '\n')).reverse
  ⟨before.count '\n' + 1, onLine.length, onLine ++ p.start.takeWhile (· ≠ '\n')⟩

/-- How many marks underline a place: its bytes, but not beyond the end of the line, and one at
least. -/
def Place.marks (p : Place) (at' : Position) : Nat :=
  max 1 (min (byteLength p.start - byteLength p.stop) (byteLength at'.content - at'.column))

def Place.complaint (text : List Char) (p : Place) (message : String) : String :=
  let position := p.position text
  let number := Digits.decimal position.line
  let gutter := String.ofList (List.replicate (number.length + 1) ' ') ++ "|"
  "TOML parse error at line " ++ number ++ ", column " ++ Digits.decimal (position.column + 1)
    ++ "\n" ++ gutter ++ "\n"
    ++ number ++ " | " ++ String.ofList position.content ++ "\n"
    ++ gutter ++ String.ofList (List.replicate (position.column + 1) ' ')
    ++ String.ofList (List.replicate (p.marks position) '^') ++ "\n"
    ++ message ++ "\n"

end FrontDoor.Toml
