import FrontDoor.Number.Binary64

/-!
# The shortest numeral of a double

A double is written with the fewest significant digits that read back as the same double; among
numerals of that many digits the nearest one is taken, and of two equally near the larger. Numerals
are positional, without an exponent.
-/

namespace FrontDoor.Binary64

/-- The numbers that round to a magnitude, as a closed or open interval. The bounds and the
magnitude are counted in quarters of a unit. -/
structure Neighbourhood where
  low : Nat
  high : Nat
  closed : Bool

/-- Half way to the doubles on either side. Below a power of two the doubles lie twice as dense. A
bound belongs to the interval when ties go to this magnitude, that is, when it is even. -/
def neighbourhood (units : Nat) : Neighbourhood :=
  let gap := Nat.pow 2 (dropped units)
  let below := if units = Nat.pow 2 units.log2 ∧ 1 < gap then gap else 2 * gap
  ⟨4 * units - below, 4 * units + 2 * gap, units / gap % 2 = 0⟩

/-- Whether `digits * num / den` quarters of a unit lie in the interval. -/
def Neighbourhood.contains (n : Neighbourhood) (digits num den : Nat) : Bool :=
  let point := digits * num
  if n.closed then n.low * den ≤ point && point ≤ n.high * den
  else n.low * den < point && point < n.high * den

/-- The power of ten with the given exponent, as a quotient. -/
def tenTo (e : Int) : Nat × Nat :=
  if e ≥ 0 then (Nat.pow 10 e.toNat, 1) else (1, Nat.pow 10 (-e).toNat)

/-- The least exponent `e` with the magnitude below `10 ^ e`. It is guessed from the number of bits
and the guess is never more than one too small. -/
def decimalExponent (units : Nat) : Int :=
  let guess := ((units.log2 : Int) - 1074) * 1233 / 4096
  let below (e : Int) : Bool := units * (tenTo e).2 < (tenTo e).1 * one
  if below guess then guess else if below (guess + 1) then guess + 1 else guess + 2

/-- The multiple of `10 ^ e` that reads back as the magnitude and is nearest to it, if there is one,
as a number of such steps. -/
def onGrid? (units : Nat) (e : Int) : Option Nat :=
  let near := neighbourhood units
  let num := (tenTo e).1 * 4 * one
  let den := (tenTo e).2
  let lower := 4 * units * den / num
  let inside (digits : Nat) : Bool := near.contains digits num den
  let upperIsNearer : Bool := num ≤ 2 * (4 * units * den % num)
  if inside (lower + 1) && (upperIsNearer || !inside lower) then some (lower + 1)
  else if inside lower then some lower
  else none

/-- Digits without a zero at the end. -/
def dropZero (digits : Nat) (e : Int) : Nat × Int :=
  if digits % 10 = 0 then (digits / 10, e + 1) else (digits, e)

/-- The digits of the shortest numeral of a positive magnitude and the exponent of the last one.
Seventeen digits always suffice. The first grid can yield ten steps, which are one of the next. -/
def shortestDigits (units : Nat) : Nat × Int :=
  let top := decimalExponent units
  ((List.range 17).findSome? fun n =>
    let e := top - (n + 1 : Nat)
    (onGrid? units e).map (dropZero · e)).getD (0, 0)

/-- The digits of a number with the last one standing at `10 ^ e`. -/
def positional (digits : Nat) (e : Int) : List Char :=
  let ds := Nat.toDigits 10 digits
  if e ≥ 0 then ds ++ List.replicate e.toNat '0'
  else
    let places := (-e).toNat
    let padded := List.replicate (places + 1 - ds.length) '0' ++ ds
    padded.take (padded.length - places) ++ ['.'] ++ padded.drop (padded.length - places)

def text : Binary64 → String
  | .nan => "NaN"
  | .infinity negative => if negative then "-inf" else "inf"
  | .finite negative units =>
    let magnitude :=
      if units = 0 then ['0']
      else let (digits, e) := shortestDigits units; positional digits e
    String.ofList (if negative then '-' :: magnitude else magnitude)

/-- The numeral of a double, with a decimal place also when it is whole. -/
def textWithPoint (x : Binary64) : String :=
  match x with
  | .finite _ _ => if x.text.toList.contains '.' then x.text else x.text ++ ".0"
  | _ => x.text

end FrontDoor.Binary64
