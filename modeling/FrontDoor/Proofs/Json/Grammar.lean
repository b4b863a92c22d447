import FrontDoor.Json.StringMap
import FrontDoor.Proofs.Text.Hexadecimal

/-!
# The grammar of string maps

RFC 8259, as far as objects with string values need it. Every relation stands between a text and
what the text denotes, and says nothing of how it is read. White space stands in front of a token or
behind it.
-/

namespace FrontDoor.Json

open Digits (HexDigit)
open String (utf8EncodeChar)

/-- White space: spaces, tabs, line feeds and carriage returns. -/
def Blanks (w : Bytes) : Prop := ∀ b ∈ w, b = 0x20 ∨ b = 0x09 ∨ b = 0x0A ∨ b = 0x0D

/-- Four hexadecimal digits and their number. -/
inductive Hex4 : Bytes → Nat → Prop where
  | mk {a b c d : UInt8} {i j k l : Nat} : HexDigit a i → HexDigit b j → HexDigit c k →
      HexDigit d l → Hex4 [a, b, c, d] (((i * 16 + j) * 16 + k) * 16 + l)

/-- The letters of the short escapes, with the characters that they denote. -/
def escapeLetters : List (Char × Char) :=
  [('"', '"'), ('\\', '\\'), ('/', '/'), ('b', '\x08'), ('f', '\x0c'), ('n', '\n'), ('r', '\r'),
    ('t', '\t')]

/-- What stands behind the `u` of an escape. A number that is no surrogate denotes the character
with this number, and a high surrogate denotes one only together with a low surrogate behind it. -/
inductive UnicodeText : Bytes → Char → Prop where
  | unit {x : Bytes} {n : Nat} : Hex4 x n → ¬(0xD800 ≤ n ∧ n ≤ 0xDFFF) →
      UnicodeText x (Char.ofNat n)
  | pair {x y : Bytes} {n m : Nat} : Hex4 x n → Hex4 y m → 0xD800 ≤ n ∧ n ≤ 0xDBFF →
      0xDC00 ≤ m ∧ m ≤ 0xDFFF →
      UnicodeText (x ++ asciiByte '\\' :: asciiByte 'u' :: y)
        (Char.ofNat (0x10000 + (n - 0xD800) * 0x400 + (m - 0xDC00)))

/-- What stands behind a backslash. -/
inductive EscapeText : Bytes → Char → Prop where
  | letter {l c : Char} : (l, c) ∈ escapeLetters → EscapeText [asciiByte l] c
  | unicode {x : Bytes} {c : Char} : UnicodeText x c → EscapeText (asciiByte 'u' :: x) c

/-- One character of a string: the UTF-8 of a character that may stand there, or an escape. -/
inductive CharText : Bytes → Char → Prop where
  | plain {c : Char} : c ≠ '"' → c ≠ '\\' → 0x20 ≤ c.toNat → CharText (utf8EncodeChar c) c
  | escaped {x : Bytes} {c : Char} : EscapeText x c → CharText (asciiByte '\\' :: x) c

/-- The characters between two quotes. -/
inductive CharsText : Bytes → List Char → Prop where
  | nil : CharsText [] []
  | cons {x xs : Bytes} {c : Char} {cs : List Char} : CharText x c → CharsText xs cs →
      CharsText (x ++ xs) (c :: cs)

inductive StringText : Bytes → String → Prop where
  | mk {x : Bytes} {cs : List Char} : CharsText x cs →
      StringText (asciiByte '"' :: (x ++ [asciiByte '"'])) (String.ofList cs)

/-- A name, a colon and a value. -/
inductive MemberText : Bytes → String × String → Prop where
  | mk {w₁ w₂ w₃ x y : Bytes} {name value : String} : Blanks w₁ → StringText x name → Blanks w₂ →
      Blanks w₃ → StringText y value →
      MemberText (w₁ ++ x ++ (w₂ ++ asciiByte ':' :: (w₃ ++ y))) (name, value)

/-- At least one member. Every comma has a member behind it. -/
inductive MembersText : Bytes → List (String × String) → Prop where
  | one {x : Bytes} {m : String × String} : MemberText x m → MembersText x [m]
  | more {x w y : Bytes} {m : String × String} {ms : List (String × String)} : MemberText x m →
      Blanks w → MembersText y ms → MembersText (x ++ (w ++ asciiByte ',' :: y)) (m :: ms)

/-- An object, with its members in the order in which they stand. -/
inductive ObjectText : Bytes → List (String × String) → Prop where
  | empty {w : Bytes} : Blanks w →
      ObjectText (asciiByte '\x7b' :: (w ++ [asciiByte '\x7d'])) []
  | members {x w : Bytes} {ms : List (String × String)} : MembersText x ms → Blanks w →
      ObjectText (asciiByte '\x7b' :: (x ++ (w ++ [asciiByte '\x7d']))) ms

/-- The four letters of `null`. -/
def nullText : Bytes := [0x6E, 0x75, 0x6C, 0x6C]

/-- A text of a string map: `null` for the one without entries, or an object. The last member with a
name gives its value. -/
inductive MapText (x : Bytes) (m : StringMap) : Prop where
  | null : x = nullText → (∀ k, m.get? k = none) → MapText x m
  | object {ms : List (String × String)} : ObjectText x ms →
      (∀ k v, m.get? k = some v ↔
        ∃ front back, ms = front ++ (k, v) :: back ∧ ∀ e ∈ back, e.1 ≠ k) → MapText x m

/-! ## What texts begin with -/

theorem StringText.exists_cons {x : Bytes} {s : String} (h : StringText x s) :
    ∃ y, x = asciiByte '"' :: y := by
  cases h
  exact ⟨_, rfl⟩

theorem MemberText.exists_cons {x : Bytes} {m : String × String} (h : MemberText x m) :
    ∃ w y, Blanks w ∧ x = w ++ asciiByte '"' :: y := by
  obtain @⟨w₁, w₂, w₃, x, y, name, value, hw₁, hx, -⟩ := h
  obtain ⟨x, rfl⟩ := hx.exists_cons
  exact ⟨w₁, _, hw₁, by rw [List.append_assoc]; rfl⟩

theorem MembersText.exists_cons {x : Bytes} {ms : List (String × String)} (h : MembersText x ms) :
    ∃ w y, Blanks w ∧ x = w ++ asciiByte '"' :: y := by
  cases h with
  | one hm => exact hm.exists_cons
  | more hm =>
    obtain ⟨w, y, hw, rfl⟩ := hm.exists_cons
    exact ⟨w, _, hw, by rw [List.append_assoc]; rfl⟩

end FrontDoor.Json
