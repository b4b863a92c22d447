import FrontDoor.Text.Digits

/-!
# Counts

A count is a number below 2^64, written as decimal digits after an optional plus sign. Characters
are taken from left to right, and the first one that cannot be taken says what is wrong.
-/

namespace FrontDoor

/-- Why a text is no count. -/
inductive CountFault where
  | empty
  | notDigit
  | tooLarge
  deriving DecidableEq, Repr

def CountFault.message : CountFault → String
  | .empty => "cannot parse integer from empty string"
  | .notDigit => "invalid digit found in string"
  | .tooLarge => "number too large to fit in target type"

namespace Count

/-- Appends a digit to a number. -/
def push (n : Nat) (c : Char) : Except CountFault Nat :=
  match Digits.decimalDigit? c with
  | none => .error .notDigit
  | some d => if 10 * n + d < UInt64.size then .ok (10 * n + d) else .error .tooLarge

/-- The number that digits spell. There has to be one. -/
def readDigits : List Char → Except CountFault UInt64
  | [] => .error .notDigit
  | cs => (cs.foldlM push 0).map UInt64.ofNat

def read : List Char → Except CountFault UInt64
  | [] => .error .empty
  | '+' :: cs => readDigits cs
  | cs => readDigits cs

def text (n : UInt64) : String := Digits.decimal n.toNat

end Count

end FrontDoor
