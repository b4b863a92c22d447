import FrontDoor.Bytes

/-!
# Numbers in decimal and hexadecimal

Numerals are written without leading zeros, hexadecimal ones in lower case, and read with a limit
on their value where the format has one.
-/

namespace FrontDoor.Digits

def decimal (n : Nat) : String := String.ofList (Nat.toDigits 10 n)

/-- The hexadecimal numeral of a number, in lower case. -/
def hex (n : Nat) : List Char := Nat.toDigits 16 n

/-- The last hexadecimal digits of a number, `width` of them. -/
def lastHexDigits : (width n : Nat) → List Char
  | 0, _ => []
  | width + 1, n => lastHexDigits width (n / 16) ++ [Nat.digitChar (n % 16)]

def decimalDigit? (c : Char) : Option Nat :=
  if '0' ≤ c ∧ c ≤ '9' then some (c.toNat - '0'.toNat) else none

/-- The value of a hexadecimal digit of either case. -/
def hexDigit? (c : Char) : Option Nat :=
  if '0' ≤ c ∧ c ≤ '9' then some (c.toNat - '0'.toNat)
  else if 'a' ≤ c ∧ c ≤ 'f' then some (c.toNat - 'a'.toNat + 10)
  else if 'A' ≤ c ∧ c ≤ 'F' then some (c.toNat - 'A'.toNat + 10)
  else none

/-- The value of a numeral in the given base, all of whose characters are digits. -/
def value? (base : Nat) (digit? : Char → Option Nat) (cs : List Char) : Option Nat :=
  cs.foldl (fun n? c => n?.bind fun n => (digit? c).map fun d => n * base + d) (some 0)

end FrontDoor.Digits
