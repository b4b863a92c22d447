import FrontDoor.Dictionary

/-!
# Series

A family of metrics keeps one series for each list of label values. The family tells series apart by
the values written one after the other, so that two lists that read the same have one series, named
by the list that came first. Looking at a series creates it.
-/

namespace FrontDoor

/-- One series: the label values that name it, and what was recorded. -/
structure Series (α : Type) where
  labels : List String
  value : α
  deriving DecidableEq

/-- The series of a family, by their label values written one after the other. -/
abbrev SeriesTable (α : Type) := Dictionary (Series α)

namespace SeriesTable

variable {α : Type}

/-- What tells one series from another. -/
def key (labels : List String) : String := String.join labels

/-- The series of some label values, or a new one that has recorded nothing. -/
def find (t : SeriesTable α) (fresh : α) (labels : List String) : Series α :=
  (t.get? (key labels)).getD ⟨labels, fresh⟩

/-- Records something in the series of some label values. -/
def update (t : SeriesTable α) (fresh : α) (labels : List String) (record : α → α) :
    SeriesTable α :=
  let s := t.find fresh labels
  t.insert (key labels) { s with value := record s.value }

/-- Whether a list of label values comes before another one or equals it: the first values that
differ decide. -/
def precedes : List String → List String → Bool
  | [], _ => true
  | _ :: _, [] => false
  | a :: as, b :: bs => a < b || (a = b && precedes as bs)

/-- All series, in the order of their label values. -/
def sorted (t : SeriesTable α) : List (Series α) :=
  t.values.mergeSort fun a b => precedes a.labels b.labels

end SeriesTable

end FrontDoor
