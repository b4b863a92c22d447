import FrontDoor.Number.Binary64
import FrontDoor.Toml.Text

/-!
# Numbers, truth values and dates in TOML

A text that begins like a number is a date or a time if it reads as one, else a float, else an
integer. Underscores may stand between digits. Dates and times are checked and not kept.
-/

namespace FrontDoor.Toml

/-! ## Digits -/

/-- Digits behind a first one, without the single underscores that may stand between two. -/
def readMoreDigits (isDigit : Char → Bool) : List Char → List Char × List Char
  | [] => ([], [])
  | c :: cs =>
    if isDigit c then
      let r := readMoreDigits isDigit cs
      (c :: r.1, r.2)
    else if c = '_' && (cs.head?.any isDigit) then readMoreDigits isDigit cs
    else ([], c :: cs)

/-- One digit or more, without underscores, and what follows them. -/
def readDigits? (isDigit : Char → Bool) : List Char → Option (List Char × List Char)
  | [] => none
  | c :: cs =>
    if isDigit c then
      let r := readMoreDigits isDigit cs
      some (c :: r.1, r.2)
    else none

/-- The whole part of a decimal number, without a leading zero. -/
def readWhole? : List Char → Option (List Char × List Char)
  | '0' :: cs => some (['0'], cs)
  | cs => readDigits? Char.isDigit cs

/-! ## Integers -/

/-- The digits of a base, by the letter that announces it. -/
def baseOf? (letter : Char) : Option (Nat × (Char → Bool)) :=
  if letter = 'x' then some (16, fun c => (Digits.hexDigit? c).isSome)
  else if letter = 'o' then some (8, fun c => '0' ≤ c && c ≤ '7')
  else if letter = 'b' then some (2, fun c => c = '0' || c = '1')
  else none

/-- An integer, if it is one of 64 bits with a sign. -/
def fitted? (i : Int) (rest : List Char) : Option (Int × List Char) :=
  if -9223372036854775808 ≤ i ∧ i < 9223372036854775808 then some (i, rest) else none

def readDecimal? (cs : List Char) : Option (Int × List Char) :=
  let (negative, cs) := Binary64.splitSign cs
  match readWhole? cs with
  | some (ds, rest) =>
    let n : Int := Binary64.digitsValue ds
    fitted? (if negative then -n else n) rest
  | none => none

/-- An integer in any base. Only decimal ones have a sign. -/
def readInteger? : List Char → Option (Int × List Char)
  | '0' :: letter :: cs =>
    match baseOf? letter with
    | some (base, isDigit) =>
      (readDigits? isDigit cs).bind fun r =>
        (Digits.value? base Digits.hexDigit? r.1).bind fun n => fitted? n r.2
    | none => readDecimal? ('0' :: letter :: cs)
  | cs => readDecimal? cs

/-! ## Floats -/

/-- The exponent of a float: its sign, its digits and what follows. -/
def readExponent? : List Char → Option (Bool × List Char × List Char)
  | [] => none
  | e :: cs =>
    if e = 'e' ∨ e = 'E' then
      let (negative, cs) := Binary64.splitSign cs
      (readDigits? Char.isDigit cs).map fun r => (negative, r.1, r.2)
    else none

/-- A decimal float: a fraction, an exponent or both behind the whole part. One that is too large is
refused, but not when it is negative. -/
def readDecimalFloat? (cs : List Char) : Option (Binary64 × List Char) := do
  let (negative, cs) := Binary64.splitSign cs
  let (whole, rest) ← readWhole? cs
  let (fraction, rest) ← match rest with
    | '.' :: tail => readDigits? Char.isDigit tail
    | _ => some ([], rest)
  let (exponentNegative, exponent, rest) ← match readExponent? rest with
    | some r => some r
    | none => if fraction.isEmpty then none else some (false, [], rest)
  let x := Binary64.Numeral.value ⟨negative, whole, fraction, exponentNegative, exponent⟩
  if x = .infinity false then none else some (x, rest)

/-- An infinity or no number, by name, with an optional sign. -/
def readNamedFloat? (cs : List Char) : Option (Binary64 × List Char) :=
  let (negative, cs) := Binary64.splitSign cs
  match cs with
  | 'i' :: 'n' :: 'f' :: rest => some (.infinity negative, rest)
  | 'n' :: 'a' :: 'n' :: rest => some (.nan, rest)
  | _ => none

def readFloat? (cs : List Char) : Option (Binary64 × List Char) :=
  (readDecimalFloat? cs).or (readNamedFloat? cs)

/-! ## Dates and times -/

/-- Exactly `n` decimal digits that make a number between two bounds, and what follows. -/
def readField? (n low high : Nat) (cs : List Char) : Option (Nat × List Char) :=
  let ds := cs.take n
  if ds.length = n ∧ ds.all Char.isDigit then
    let value := Binary64.digitsValue ds
    if low ≤ value ∧ value ≤ high then some (value, cs.drop n) else none
  else none

/-- The number of days of a month. -/
def daysIn (year month : Nat) : Nat :=
  if month = 2 then
    if year % 4 = 0 ∧ (year % 100 ≠ 0 ∨ year % 400 = 0) then 29 else 28
  else if month = 4 ∨ month = 6 ∨ month = 9 ∨ month = 11 then 30
  else 31

/-- What follows a date at the front. -/
def skipDate? (cs : List Char) : Option (List Char) := do
  let (year, cs) ← readField? 4 0 9999 cs
  let cs ← expectChar? '-' cs
  let (month, cs) ← readField? 2 1 12 cs
  let cs ← expectChar? '-' cs
  let (_, cs) ← readField? 2 1 (daysIn year month) cs
  some cs

/-- What follows a fraction of a second at the front; there need be none. -/
def skipFraction? : List Char → Option (List Char)
  | '.' :: cs => if cs.head?.any Char.isDigit then some (cs.dropWhile Char.isDigit) else none
  | cs => some cs

/-- What follows a time of day at the front. A minute may have a leap second. -/
def skipTime? (cs : List Char) : Option (List Char) := do
  let (_, cs) ← readField? 2 0 23 cs
  let cs ← expectChar? ':' cs
  let (_, cs) ← readField? 2 0 59 cs
  let cs ← expectChar? ':' cs
  let (_, cs) ← readField? 2 0 60 cs
  skipFraction? cs

/-- What follows a distance to universal time at the front. -/
def skipOffset? : List Char → Option (List Char)
  | [] => none
  | c :: cs =>
    if c = 'Z' ∨ c = 'z' then some cs
    else if c = '+' ∨ c = '-' then do
      let (_, cs) ← readField? 2 0 23 cs
      let cs ← expectChar? ':' cs
      let (_, cs) ← readField? 2 0 59 cs
      some cs
    else none

/-- What follows a time behind the mark that joins it to a date, with its offset if it has one. -/
def skipJoinedTime? : List Char → Option (List Char)
  | [] => none
  | c :: cs =>
    if c = 'T' ∨ c = 't' ∨ c = ' ' then
      (skipTime? cs).map fun rest => (skipOffset? rest).getD rest
    else none

/-- What follows a date, a time or both at the front. -/
def skipDateTime? (cs : List Char) : Option (List Char) :=
  match skipDate? cs with
  | some rest => some ((skipJoinedTime? rest).getD rest)
  | none => skipTime? cs

end FrontDoor.Toml
