import FrontDoor.Text.Digits

/-!
# Random identifiers

A UUID of version 4 has 122 random bits. The other six tell its version and its variant, and show
in the text as a four at the start of the third group and a digit from eight to eleven at the start
of the fourth.
-/

namespace FrontDoor

/-- The random bits of an identifier: those before the version, between it and the variant, and
after the variant. -/
structure Uuid where
  high : BitVec 48
  middle : BitVec 12
  low : BitVec 62
  deriving DecidableEq, Repr

namespace Uuid

def groups (u : Uuid) : List (List Char) :=
  [Digits.lastHexDigits 8 (u.high.toNat >>> 16),
   Digits.lastHexDigits 4 u.high.toNat,
   '4' :: Digits.lastHexDigits 3 u.middle.toNat,
   Digits.lastHexDigits 4 (0x8000 + (u.low.toNat >>> 48)),
   Digits.lastHexDigits 12 u.low.toNat]

def chars (u : Uuid) : List Char := ['-'].intercalate u.groups

def text (u : Uuid) : String := String.ofList u.chars

def shortened (u : Uuid) (length : Nat) : String := String.ofList (u.chars.take length)

end Uuid

end FrontDoor
