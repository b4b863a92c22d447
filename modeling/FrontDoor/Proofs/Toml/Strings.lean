import FrontDoor.Proofs.Text.Utf8
import FrontDoor.Toml.Text

/-!
# Basic strings are read back

A basic string may spell a character in several ways: as it is, by a letter, or by its number. In
whichever way its characters are spelled, it is read as the text that they make
(`readString?_stringText`). Every text has such a string (`stringText_writeString`).
-/

namespace FrontDoor.Toml

/-- The letters of the short escapes, with the characters that they denote. -/
def escapeLetters : List (Char × Char) :=
  [('b', '\x08'), ('t', '\t'), ('n', '\n'), ('f', '\x0c'), ('r', '\r'), ('"', '"'), ('\\', '\\')]

/-- Hexadecimal digits of either case, and their number. -/
def HexNumber (digits : List Char) (n : Nat) : Prop :=
  Digits.value? 16 Digits.hexDigit? digits = some n

/-- A character of a basic string: one that may stand there as it is, or an escape. -/
inductive CharText : List Char → Char → Prop where
  | plain {c : Char} : c ≠ '"' → c ≠ '\\' → isPlain c = true → CharText [c] c
  | letter {l c : Char} : (l, c) ∈ escapeLetters → CharText ['\\', l] c
  | four {digits : List Char} {c : Char} : digits.length = 4 → HexNumber digits c.toNat →
      CharText ('\\' :: 'u' :: digits) c
  | eight {digits : List Char} {c : Char} : digits.length = 8 → HexNumber digits c.toNat →
      CharText ('\\' :: 'U' :: digits) c

/-- The characters between two quotes. -/
inductive CharsText : List Char → List Char → Prop where
  | nil : CharsText [] []
  | cons {x xs : List Char} {c : Char} {cs : List Char} : CharText x c → CharsText xs cs →
      CharsText (x ++ xs) (c :: cs)

/-- A basic string, and the text that it spells. -/
inductive StringText : List Char → String → Prop where
  | mk {x : List Char} {s : String} : CharsText x s.toList → StringText ('"' :: (x ++ ['"'])) s

variable {x digits rest : List Char} {c : Char} {cs : List Char} {s : String}

/-! ## Reading -/

/-- The number of a character is read as this character. -/
theorem readCode?_append {n : Nat} (hlength : digits.length = n) (h : HexNumber digits c.toNat)
    (rest : List Char) : readCode? n (digits ++ rest) = some (c, rest) := by
  have hvalue : Digits.value? 16 Digits.hexDigit? digits = some c.toNat := h
  have henough : ¬(digits ++ rest).length < n := by
    rw [List.length_append]
    omega
  rw [readCode?, if_neg henough, List.take_left' hlength, hvalue]
  dsimp only
  rw [if_pos (Utf8.isValidChar_toNat c), Char.ofNat_toNat, List.drop_left' hlength]

theorem readEscape?_letter {l : Char} (h : (l, c) ∈ escapeLetters) (rest : List Char) :
    readEscape? (l :: rest) = some (c, rest) := by
  simp only [escapeLetters, List.mem_cons, Prod.mk.injEq, List.not_mem_nil, or_false] at h
  rcases h with ⟨rfl, rfl⟩ | ⟨rfl, rfl⟩ | ⟨rfl, rfl⟩ | ⟨rfl, rfl⟩ | ⟨rfl, rfl⟩ | ⟨rfl, rfl⟩ |
    ⟨rfl, rfl⟩ <;> rfl

theorem readBasicOnto_escape {done cs : List Char} (h : readEscape? cs = some (c, rest)) :
    readBasicOnto done ('\\' :: cs) = readBasicOnto (c :: done) rest := by
  rw [readBasicOnto, if_neg (by decide), if_pos rfl]
  split
  · next heq =>
    rw [h] at heq
    cases heq
    rfl
  · next heq =>
    rw [h] at heq
    cases heq

/-- A character is read as it is spelled. -/
theorem readBasicOnto_charText (h : CharText x c) (done rest : List Char) :
    readBasicOnto done (x ++ rest) = readBasicOnto (c :: done) rest := by
  cases h with
  | plain hquote hbackslash hplain =>
    rw [List.singleton_append, readBasicOnto, if_neg hquote, if_neg hbackslash, if_pos hplain]
  | letter hletter => exact readBasicOnto_escape (readEscape?_letter hletter rest)
  | four hlength hdigits =>
    exact readBasicOnto_escape (readCode?_append hlength hdigits rest)
  | eight hlength hdigits =>
    exact readBasicOnto_escape (readCode?_append hlength hdigits rest)

theorem readBasicOnto_charsText (h : CharsText x cs) (done rest : List Char) :
    readBasicOnto done (x ++ '"' :: rest) = some (String.ofList (done.reverse ++ cs), rest) := by
  induction h generalizing done with
  | nil => rw [List.nil_append, readBasicOnto, if_pos rfl, List.append_nil]
  | cons hc _ ih =>
    rw [List.append_assoc, readBasicOnto_charText hc, ih, List.reverse_cons, List.append_assoc,
      List.singleton_append]

/-- What spells characters does not begin with a quote. -/
theorem CharsText.head?_ne (h : CharsText x cs) : ∀ c ∈ x.head?, c ≠ '"' := by
  cases h with
  | nil => simp
  | cons hc _ =>
    cases hc with
    | plain hquote =>
      rintro _ ⟨⟩
      exact hquote
    | letter | four | eight =>
      rintro _ ⟨⟩
      decide

/-- **A basic string is read as the text that it spells.** One without characters must not be taken
for the beginning of a string on several lines. -/
theorem readString?_stringText (h : StringText x s) (hrest : ∀ c ∈ rest.head?, c ≠ '"') :
    readString? (x ++ rest) = some (s, rest) := by
  obtain @⟨x, s, hchars⟩ := h
  have hread := readBasicOnto_charsText hchars [] rest
  rw [List.reverse_nil, List.nil_append, String.ofList_toList] at hread
  have hshort : ∀ tail, x ++ '"' :: rest ≠ '"' :: '"' :: tail := by
    intro tail heq
    cases x with
    | nil => exact hrest '"' (by rw [(List.cons.inj heq).2]; rfl) rfl
    | cons first x => exact hchars.head?_ne first rfl (List.cons.inj heq).1
  have hsplit : '"' :: (x ++ ['"']) ++ rest = '"' :: (x ++ '"' :: rest) := by simp
  rw [hsplit]
  unfold readString?
  split
  · next heq => exact absurd (List.cons.inj heq).2 (hshort _)
  · next heq =>
    rw [← (List.cons.inj heq).2]
    exact hread
  · next heq => cases heq
  · next heq => cases heq
  · next _ hno _ _ => exact absurd rfl (hno _)

/-! ## Writing -/

theorem charText_writeChar (c : Char) : CharText (writeChar c) c := by
  unfold writeChar
  split
  · next h =>
    rcases h with rfl | rfl <;> exact .letter (by decide)
  · next h =>
    obtain ⟨hquote, hbackslash⟩ := not_or.mp h
    split
    · next hplain => exact .plain hquote hbackslash hplain
    · next hplain =>
      -- The control characters have numbers of two digits at most.
      have hcontrol : c.toNat < 128 := by
        simp only [isPlain, Bool.or_eq_true, Bool.and_eq_true, decide_eq_true_eq, not_or,
          not_and] at hplain
        omega
      have hall : ∀ n < 128,
          (List.replicate (4 - (Digits.hex n).length) '0' ++ Digits.hex n).length = 4 ∧
            HexNumber (List.replicate (4 - (Digits.hex n).length) '0' ++ Digits.hex n) n := by
        unfold HexNumber
        decide +kernel
      obtain ⟨hlength, hdigits⟩ := hall c.toNat hcontrol
      exact .four hlength hdigits

theorem charsText_flatMap (cs : List Char) : CharsText (cs.flatMap writeChar) cs := by
  induction cs with
  | nil => exact .nil
  | cons c cs ih => exact .cons (charText_writeChar c) ih

/-- The basic string that is written for a text spells it. -/
theorem stringText_writeString (s : String) : StringText (writeString s) s :=
  .mk (charsText_flatMap s.toList)

end FrontDoor.Toml
