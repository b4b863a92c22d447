import FrontDoor.Text.Digits
import FrontDoor.Text.Utf8

/-!
# Percent escapes

A percent sign followed by two hexadecimal digits stands for one byte. Any other percent sign
stands for itself, and what an escape yields is not read again.
-/

namespace FrontDoor.Percent

/-- The byte spelled by two hexadecimal digits. -/
def escape? (a b : UInt8) : Option UInt8 :=
  match Digits.hexDigit? (Char.ofNat a.toNat), Digits.hexDigit? (Char.ofNat b.toNat) with
  | some h, some l => some (UInt8.ofNat (16 * h + l))
  | _, _ => none

/-- `decode`, put after what was decoded before, the latest first. -/
def decodeOnto (done : Bytes) : Bytes → Bytes
  | p :: a :: b :: rest =>
    match if p = asciiByte '%' then escape? a b else none with
    | some byte => decodeOnto (byte :: done) rest
    | none => decodeOnto (p :: done) (a :: b :: rest)
  | p :: rest => decodeOnto (p :: done) rest
  | [] => done.reverse

/-- The bytes that remain when every escape is replaced by its byte, left to right and once. -/
def decode (bs : Bytes) : Bytes := decodeOnto [] bs

/-- The text that the bytes spell, if they spell one. Without a percent sign nothing is decoded and
the bytes are taken as they are. -/
def text? (bs : Bytes) : Option (List Char) :=
  if asciiByte '%' ∈ bs then Utf8.decode? (decode bs) else Utf8.decode? bs

end FrontDoor.Percent
