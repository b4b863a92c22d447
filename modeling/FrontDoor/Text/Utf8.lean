import FrontDoor.Bytes

/-!
# UTF-8

`read` takes any bytes apart into characters and ill-formed stretches. An ill-formed stretch is as
long as it can be: it ends before the first byte with which no character could still begin as the
stretch does. Strict decoding asks that there be no such stretch; lossy decoding writes U+FFFD for
each.
-/

namespace FrontDoor.Utf8

def encode (cs : List Char) : Bytes := cs.flatMap String.utf8EncodeChar

/-- What the first byte of a character says of the rest: how many bytes follow, where the first of
them must lie, and the bits it carries itself. -/
structure Lead where
  tails : Nat
  low : Nat
  high : Nat
  bits : Nat

/-- The bytes that can begin a character. The bounds on the second byte leave out overlong forms,
surrogates and numbers above U+10FFFF. -/
def lead? (b : Nat) : Option Lead :=
  if b < 0x80 then some ⟨0, 0x80, 0xBF, b⟩
  else if b < 0xC2 then none
  else if b < 0xE0 then some ⟨1, 0x80, 0xBF, b - 0xC0⟩
  else if b = 0xE0 then some ⟨2, 0xA0, 0xBF, 0⟩
  else if b = 0xED then some ⟨2, 0x80, 0x9F, 0xD⟩
  else if b < 0xF0 then some ⟨2, 0x80, 0xBF, b - 0xE0⟩
  else if b = 0xF0 then some ⟨3, 0x90, 0xBF, 0⟩
  else if b < 0xF4 then some ⟨3, 0x80, 0xBF, b - 0xF0⟩
  else if b = 0xF4 then some ⟨3, 0x80, 0x8F, 4⟩
  else none

/-- Reads `n` more bytes of a character whose first bytes carry `bits`; the next byte lies between
`low` and `high`. No character is read when one of them is missing or out of its range, and then
the rest begins at that byte. -/
def readTails (low high : Nat) : Nat → Nat → Bytes → Option Char × Bytes
  | 0, bits, bs => (some (Char.ofNat bits), bs)
  | _ + 1, _, [] => (none, [])
  | n + 1, bits, b :: bs =>
    if low ≤ b.toNat ∧ b.toNat ≤ high then
      readTails 0x80 0xBF n (bits * 64 + (b.toNat - 0x80)) bs
    else (none, b :: bs)

/-- The character that begins with `b`, or nothing for an ill-formed stretch, and what follows. -/
def next (b : UInt8) (bs : Bytes) : Option Char × Bytes :=
  match lead? b.toNat with
  | some l => readTails l.low l.high l.tails l.bits bs
  | none => (none, bs)

theorem length_readTails_le (low high n bits : Nat) (bs : Bytes) :
    (readTails low high n bits bs).2.length ≤ bs.length := by
  induction n generalizing low high bits bs with
  | zero => simp [readTails]
  | succ n ih =>
    cases bs with
    | nil => simp [readTails]
    | cons b bs =>
      simp only [readTails]
      split
      · exact Nat.le_succ_of_le (ih ..)
      · simp

theorem length_next_le (b : UInt8) (bs : Bytes) : (next b bs).2.length ≤ bs.length := by
  unfold next
  split
  · exact length_readTails_le ..
  · simp

/-- `read`, put after what was read before, the latest first. -/
def readOnto (done : List (Option Char)) : Bytes → List (Option Char)
  | [] => done.reverse
  | b :: bs => readOnto ((next b bs).1 :: done) (next b bs).2
termination_by bs => bs.length
decreasing_by exact Nat.lt_succ_of_le (length_next_le b bs)

/-- The characters of a byte sequence, with nothing for each ill-formed stretch. -/
def read (bs : Bytes) : List (Option Char) := readOnto [] bs

def valid (bs : Bytes) : Bool := (read bs).all Option.isSome

/-- The text of the bytes, with U+FFFD for each ill-formed stretch. -/
def lossy (bs : Bytes) : List Char := (read bs).map (·.getD '\uFFFD')

def decode? (bs : Bytes) : Option (List Char) :=
  if valid bs then some (lossy bs) else none

end FrontDoor.Utf8
