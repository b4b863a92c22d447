import FrontDoor.Toml.Text

/-!
# Names taken in a TOML document

Each name of a table is given once. What may be said again depends on how a table came about: the
table of a header is closed to dotted keys of other tables, a table that a longer header implied may
still have its own header, and one that dotted keys made may be extended by dotted keys only. A
header in double brackets adds an element to an array of tables.
-/

namespace FrontDoor.Toml

/-- What holds a name. -/
inductive Holder where
  | value
  /-- A table that the header of a table within it implied. -/
  | implied
  /-- A table that dotted keys made. -/
  | dotted
  /-- A table with a header of its own. -/
  | headed
  /-- An array of tables, with the number of its elements. -/
  | tables (count : Nat)
  deriving DecidableEq, Repr

/-- The way to a table: its name and those of the tables around it, from the inside out. An element
of an array of tables has its number, counted from one; other tables have zero. -/
abbrev TablePath := List (String × Nat)

abbrev Names := List (TablePath × Holder)

namespace Names

/-- What holds a name in a table. -/
def holder? (names : Names) (path : TablePath) : Option Holder := names.lookup path

def put (names : Names) (path : TablePath) (h : Holder) : Names := (path, h) :: names

/-- Goes down from a table along some names, to the last element where a name is an array of tables.
Missing tables are made; `byDots` tells whether it is a dotted key that leads here or a header. -/
def descend (byDots : Bool) (names : Names) (path : TablePath) : List String →
    Option (Names × TablePath)
  | [] => some (names, path)
  | name :: rest =>
    let next := (name, 0) :: path
    match names.holder? next with
    | none => descend byDots (names.put next (if byDots then .dotted else .implied)) next rest
    | some .value => none
    | some (.tables count) => descend byDots names ((name, count) :: path) rest
    | some .headed => if byDots then none else descend byDots names next rest
    | some .implied => descend byDots names next rest
    | some .dotted => descend byDots names next rest

/-- Gives a value a dotted key in a table. The table that holds the value has to be this one, or one
that dotted keys made. -/
def addValue (names : Names) (table : TablePath) (path : List String) (key : String) :
    Option Names := do
  let (names, inner) ← names.descend true table path
  if path ≠ [] ∧ names.holder? inner ≠ some .dotted then none
  else if (names.holder? ((key, 0) :: inner)).isSome then none
  else some (names.put ((key, 0) :: inner) .value)

/-- Opens the table of a header. -/
def openTable (names : Names) (path : List String) (key : String) : Option (Names × TablePath) := do
  let (names, outer) ← names.descend false [] path
  let table := (key, 0) :: outer
  match names.holder? table with
  | none | some .implied => some (names.put table .headed, table)
  | _ => none

/-- Opens a new element of an array of tables. -/
def openElement (names : Names) (path : List String) (key : String) :
    Option (Names × TablePath) := do
  let (names, outer) ← names.descend false [] path
  let table := (key, 0) :: outer
  match names.holder? table with
  | none => some (names.put table (.tables 1), (key, 1) :: outer)
  | some (.tables count) =>
    some (names.put table (.tables (count + 1)), (key, count + 1) :: outer)
  | _ => none

end Names

end FrontDoor.Toml
