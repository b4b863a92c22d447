import FrontDoor.Text.Digits

/-!
# Double-precision numbers

Every finite double is a whole number of the smallest positive one, 2^-1074. A finite value is that
whole number with a sign, so sums and comparisons are exact integer arithmetic, and a single
rounding to 53 significant bits, ties to even, follows where a result need not be a double.
-/

namespace FrontDoor

/-- A double: not a number, an infinity, or a sign and a magnitude in units of 2^-1074. -/
inductive Binary64 where
  | nan
  | infinity (negative : Bool)
  | finite (negative : Bool) (units : Nat)
  deriving DecidableEq, Repr

namespace Binary64

/-- The number of units in one. -/
def one : Nat := Nat.pow 2 1074

/-- The whole number nearest to a quotient; of two the even one. -/
def roundDiv (num den : Nat) : Nat :=
  if 2 * (num % den) < den then num / den
  else if den < 2 * (num % den) then num / den + 1
  else num / den + num / den % 2

/-- How many low bits a double of at least `units` units leaves out. -/
def dropped (units : Nat) : Nat := units.log2 - 52

/-- The double nearest to a quotient of units. Magnitudes from 2^1024 on are infinite. -/
def round (negative : Bool) (num den : Nat) : Binary64 :=
  let step := Nat.pow 2 (dropped (num / den))
  let units := roundDiv num (den * step) * step
  if units < Nat.pow 2 1024 * one then .finite negative units else .infinity negative

def zero : Binary64 := .finite false 0

/-- The double nearest to a whole number. -/
def ofNat (n : Nat) : Binary64 := round false (n * one) 1

/-- A magnitude with its sign. -/
def signed (negative : Bool) (units : Nat) : Int := if negative then -(units : Int) else units

/-- The sum: exact, then rounded once. Opposite infinities have none; an exact zero is negative only
when both summands are. -/
def add : Binary64 → Binary64 → Binary64
  | .nan, _ | _, .nan => .nan
  | .infinity a, .infinity b => if a = b then .infinity a else .nan
  | .infinity a, .finite _ _ | .finite _ _, .infinity a => .infinity a
  | .finite a x, .finite b y =>
    let sum := signed a x + signed b y
    if sum = 0 then .finite (a && b) 0 else round (sum < 0) sum.natAbs 1

/-- Whether one double is at most another. Nothing compares with what is not a number. -/
def le : Binary64 → Binary64 → Bool
  | .nan, _ | _, .nan => false
  | .infinity a, .infinity b => a || !b
  | .infinity a, .finite _ _ => a
  | .finite _ _, .infinity b => !b
  | .finite a x, .finite b y => signed a x ≤ signed b y

/-! ## Reading numerals -/

/-- The double nearest to `digits * 10 ^ exponent`, where `digits` has `places` decimal places. Far
outside the range of doubles the power of ten is not computed. -/
def ofDecimal (negative : Bool) (digits places : Nat) (exponent : Int) : Binary64 :=
  if digits = 0 then .finite negative 0
  else if exponent + places > 400 then .infinity negative
  else if exponent + places < -400 then .finite negative 0
  else if exponent ≥ 0 then round negative (digits * Nat.pow 10 exponent.toNat * one) 1
  else round negative (digits * one) (Nat.pow 10 (-exponent).toNat)

/-- A numeral taken apart: the digits before and behind the point and those of the exponent. -/
structure Numeral where
  negative : Bool
  whole : List Char
  fraction : List Char
  exponentNegative : Bool
  exponent : List Char

/-- The number a list of digits spells. -/
def digitsValue (cs : List Char) : Nat := Nat.ofDigitChars 10 cs 0

def Numeral.value (n : Numeral) : Binary64 :=
  let digits := (n.whole ++ n.fraction).dropWhile (· = '0')
  let shift : Int := digitsValue n.exponent
  ofDecimal n.negative (digitsValue digits) digits.length
    ((if n.exponentNegative then -shift else shift) - n.fraction.length)

/-- A text with its sign taken off. -/
def splitSign : List Char → Bool × List Char
  | '-' :: cs => (true, cs)
  | '+' :: cs => (false, cs)
  | cs => (false, cs)

/-- The numeral that a text spells: digits with at most one point among them, and an exponent. -/
def readNumeral? (text : List Char) : Option Numeral :=
  let (negative, cs) := splitSign text
  let whole := cs.takeWhile Char.isDigit
  let rest := cs.dropWhile Char.isDigit
  let (fraction, rest) := match rest with
    | '.' :: tail => (tail.takeWhile Char.isDigit, tail.dropWhile Char.isDigit)
    | _ => ([], rest)
  if whole.isEmpty && fraction.isEmpty then none
  else
    match rest with
    | [] => some ⟨negative, whole, fraction, false, []⟩
    | e :: tail =>
      let (exponentNegative, exponent) := splitSign tail
      if (e = 'e' ∨ e = 'E') ∧ exponent ≠ [] ∧ exponent.all Char.isDigit then
        some ⟨negative, whole, fraction, exponentNegative, exponent⟩
      else none

/-- The double a text spells: a numeral, or the name of an infinity or of no number in any case. -/
def read? (text : List Char) : Option Binary64 :=
  let (negative, name) := splitSign text
  let name := name.map Char.toLower
  if name = "inf".toList ∨ name = "infinity".toList then some (.infinity negative)
  else if name = "nan".toList then some .nan
  else (readNumeral? text).map Numeral.value

end Binary64

end FrontDoor
