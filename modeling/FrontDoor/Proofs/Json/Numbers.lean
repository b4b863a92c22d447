import FrontDoor.Proofs.Text.Decimal
import FrontDoor.Proofs.Text.Numerals
import Mathlib.Algebra.Order.Field.Rat
import Mathlib.Data.List.TakeWhile

/-!
# The grammar of numbers

RFC 8259 writes a number as an integer without leading zeros, a fraction and an exponent, of which
the last two may be missing. A text is a number in one way only (`NumberText.unique`), and a numeral
of the writer is its number (`numberText_decimal`).
-/

namespace FrontDoor.Json

/-! ## Texts cut in two -/

/-- Where a text is cut behind the last of the elements at its front that have a property, the cut
is in no other place. -/
theorem eq_of_append_eq_append {α : Type} (P : α → Bool) {x y r s : List α}
    (hx : ∀ a ∈ x, P a = true) (hy : ∀ a ∈ y, P a = true) (hr : ∀ a ∈ r.head?, P a = false)
    (hs : ∀ a ∈ s.head?, P a = false) (h : x ++ r = y ++ s) : x = y ∧ r = s := by
  have htake : ∀ {z t : List α}, (∀ a ∈ z, P a = true) → (∀ a ∈ t.head?, P a = false) →
      (z ++ t).takeWhile P = z := by
    intro z t hz ht
    rw [List.takeWhile_append_of_pos hz]
    cases t with
    | nil => simp
    | cons a t => simp [ht a rfl]
  have hfront : x = y := by rw [← htake hx hr, h, htake hy hs]
  exact ⟨hfront, List.append_cancel_left (hfront ▸ h)⟩

/-! ## The parts of a number -/

/-- At least one decimal digit. -/
def DigitsText (ds : List Char) : Prop := ds ≠ [] ∧ ∀ c ∈ ds, c.isDigit = true

/-- Digits without leading zeros. -/
def IntegerText (ds : List Char) : Prop := DigitsText ds ∧ (ds.head? = some '0' → ds = ['0'])

/-- The part behind a decimal point, if there is one. -/
inductive FractionText : List Char → ℚ → Prop where
  | missing : FractionText [] 0
  | digits {ds : List Char} : DigitsText ds →
      FractionText ('.' :: ds) (Nat.ofDigitChars 10 ds 0 / 10 ^ ds.length)

/-- The signs that an exponent can have, with their factors. -/
def exponentSigns : List (List Char × ℤ) := [([], 1), (['+'], 1), (['-'], -1)]

/-- The exponent, if there is one. -/
inductive ExponentText : List Char → ℤ → Prop where
  | missing : ExponentText [] 0
  | digits {e : Char} {sign ds : List Char} {factor : ℤ} : e = 'e' ∨ e = 'E' →
      (sign, factor) ∈ exponentSigns → DigitsText ds →
      ExponentText (e :: (sign ++ ds)) (factor * Nat.ofDigitChars 10 ds 0)

/-- The signs that a number can have, with their factors. -/
def numberSigns : List (List Char × ℚ) := [([], 1), (['-'], -1)]

inductive NumberText : List Char → ℚ → Prop where
  | mk {sign i f e : List Char} {factor q : ℚ} {n : ℤ} : (sign, factor) ∈ numberSigns →
      IntegerText i → FractionText f q → ExponentText e n →
      NumberText (sign ++ (i ++ (f ++ e))) (factor * (Nat.ofDigitChars 10 i 0 + q) * 10 ^ n)

/-! ## One number for a text -/

theorem DigitsText.isDigit_of_head? {ds : List Char} (h : DigitsText ds) (r : List Char) :
    ∀ c ∈ (ds ++ r).head?, c.isDigit = true := by
  obtain ⟨hne, hall⟩ := h
  intro c hc
  cases ds with
  | nil => exact absurd rfl hne
  | cons d ds =>
    obtain rfl := Option.some.inj hc
    exact hall d List.mem_cons_self

/-- A sign is cut off in front of the first digit. -/
theorem sign_unique {α : Type} {signs : List (List Char × α)}
    (hsigns : ∀ s ∈ signs, ∀ c ∈ s.1, c.isDigit = false) {sign sign' r r' : List Char}
    {a a' : α} (h : (sign, a) ∈ signs) (h' : (sign', a') ∈ signs)
    (hr : ∀ c ∈ r.head?, c.isDigit = true) (hr' : ∀ c ∈ r'.head?, c.isDigit = true)
    (heq : sign ++ r = sign' ++ r') : sign = sign' ∧ r = r' :=
  eq_of_append_eq_append (!·.isDigit) (fun c hc => by rw [hsigns _ h c hc]; rfl)
    (fun c hc => by rw [hsigns _ h' c hc]; rfl) (fun c hc => by rw [hr c hc]; rfl)
    (fun c hc => by rw [hr' c hc]; rfl) heq

theorem ExponentText.not_isDigit_of_head? {e : List Char} {n : ℤ} (h : ExponentText e n) :
    ∀ c ∈ e.head?, c.isDigit = false ∧ c ≠ '.' := by
  intro c hc
  cases h with
  | missing => cases hc
  | digits he =>
    obtain rfl := Option.some.inj hc
    rcases he with rfl | rfl <;> decide

theorem ExponentText.unique {e : List Char} {m n : ℤ} (h : ExponentText e m)
    (h' : ExponentText e n) : m = n := by
  cases h with
  | missing =>
    cases h'
    rfl
  | @digits c sign ds factor hc hsign hds =>
    generalize htext : c :: (sign ++ ds) = text at h'
    cases h' with
    | missing => cases htext
    | @digits c' sign' ds' factor' hc' hsign' hds' =>
      have hdigits := hds.isDigit_of_head? []
      have hdigits' := hds'.isDigit_of_head? []
      rw [List.append_nil] at hdigits hdigits'
      obtain ⟨rfl, rfl⟩ := sign_unique (by simp [exponentSigns]) hsign hsign' hdigits hdigits'
        (List.cons.inj htext).2
      have hfactor : ∀ s ∈ exponentSigns, ∀ t ∈ exponentSigns, s.1 = t.1 → s.2 = t.2 := by decide
      rw [show factor = factor' from hfactor _ hsign _ hsign' rfl]

theorem FractionText.not_isDigit_of_head? {f e : List Char} {q : ℚ} {n : ℤ}
    (h : FractionText f q) (he : ExponentText e n) : ∀ c ∈ (f ++ e).head?, c.isDigit = false := by
  cases h with
  | missing => exact fun c hc => (he.not_isDigit_of_head? c hc).1
  | digits hds =>
    intro c hc
    obtain rfl := Option.some.inj hc
    decide

theorem FractionText.unique {f f' e e' : List Char} {q q' : ℚ} {m n : ℤ} (h : FractionText f q)
    (h' : FractionText f' q') (he : ExponentText e m) (he' : ExponentText e' n)
    (heq : f ++ e = f' ++ e') : q = q' ∧ e = e' := by
  cases h with
  | missing =>
    cases h' with
    | missing => exact ⟨rfl, heq⟩
    | digits hds =>
      rw [List.nil_append] at heq
      exact absurd rfl (he.not_isDigit_of_head? '.' (by rw [heq]; rfl)).2
  | @digits ds hds =>
    cases h' with
    | missing =>
      rw [List.nil_append] at heq
      exact absurd rfl (he'.not_isDigit_of_head? '.' (by rw [← heq]; rfl)).2
    | @digits ds' hds' =>
      obtain ⟨rfl, rfl⟩ := eq_of_append_eq_append Char.isDigit hds.2 hds'.2
        (fun c hc => (he.not_isDigit_of_head? c hc).1)
        (fun c hc => (he'.not_isDigit_of_head? c hc).1) (List.cons.inj heq).2
      exact ⟨rfl, rfl⟩

/-- A text is one number. -/
theorem NumberText.unique {cs : List Char} {p q : ℚ} (h : NumberText cs p)
    (h' : NumberText cs q) : p = q := by
  obtain @⟨sign, i, f, e, factor, q, n, hsign, hi, hf, he⟩ := h
  generalize htext : sign ++ (i ++ (f ++ e)) = text at h'
  obtain @⟨sign', i', f', e', factor', q', n', hsign', hi', hf', he'⟩ := h'
  obtain ⟨rfl, hnumeral⟩ := sign_unique (by simp [numberSigns]) hsign hsign'
    (hi.1.isDigit_of_head? _) (hi'.1.isDigit_of_head? _) htext
  obtain ⟨rfl, hback⟩ := eq_of_append_eq_append Char.isDigit hi.1.2 hi'.1.2
    (hf.not_isDigit_of_head? he) (hf'.not_isDigit_of_head? he') hnumeral
  obtain ⟨rfl, rfl⟩ := hf.unique hf' he he' hback
  have hfactor : ∀ s ∈ numberSigns, ∀ t ∈ numberSigns, s.1 = t.1 → s.2 = t.2 := by
    simp [numberSigns]
  rw [he.unique he', show factor = factor' from hfactor _ hsign _ hsign' rfl]

/-! ## Numerals -/

/-- The characters that a number is made of. -/
def isNumberChar (c : Char) : Bool := c.isDigit || c ∈ ['+', '-', '.', 'e', 'E']

theorem NumberText.ne_nil {cs : List Char} {q : ℚ} (h : NumberText cs q) : cs ≠ [] := by
  obtain @⟨sign, i, f, e, factor, q, n, -, hi, -, -⟩ := h
  intro hnil
  exact hi.1.1 (List.append_eq_nil_iff.mp (List.append_eq_nil_iff.mp hnil).2).1

theorem NumberText.isNumberChar_of_mem {cs : List Char} {q : ℚ} (h : NumberText cs q) :
    ∀ c ∈ cs, isNumberChar c = true := by
  have hdigits : ∀ {ds : List Char}, DigitsText ds → ∀ c ∈ ds, isNumberChar c = true := by
    intro ds hds c hc
    rw [isNumberChar, hds.2 c hc]
    rfl
  obtain @⟨sign, i, f, e, factor, q, n, hsign, hi, hf, he⟩ := h
  have hs : ∀ s ∈ numberSigns, ∀ c ∈ s.1, isNumberChar c = true := by
    simp [numberSigns, isNumberChar]
  have hs' : ∀ s ∈ exponentSigns, ∀ c ∈ s.1, isNumberChar c = true := by
    simp [exponentSigns, isNumberChar]
  intro c hc
  rw [List.mem_append, List.mem_append, List.mem_append] at hc
  rcases hc with hc | hc | hc | hc
  · exact hs _ hsign c hc
  · exact hdigits hi.1 c hc
  · cases hf with
    | missing => cases hc
    | digits hds =>
      rcases List.mem_cons.mp hc with rfl | hc
      · decide
      · exact hdigits hds c hc
  · cases he with
    | missing => cases hc
    | digits he hsign' hds =>
      rw [List.mem_cons, List.mem_append] at hc
      rcases hc with rfl | hc | hc
      · rcases he with rfl | rfl <;> decide
      · exact hs' _ hsign' c hc
      · exact hdigits hds c hc

theorem numberText_decimal (n : ℕ) : NumberText (Digits.decimal n).toList n := by
  rw [Digits.decimal, String.toList_ofList]
  have hdigits : DigitsText (Nat.toDigits 10 n) :=
    ⟨Nat.toDigits_ne_nil, fun c hc => Nat.isDigit_of_mem_toDigits (by decide) (by decide) hc⟩
  have hint : IntegerText (Nat.toDigits 10 n) := by
    refine ⟨hdigits, fun hzero => ?_⟩
    rcases Nat.eq_zero_or_pos n with rfl | hn
    · rfl
    · exact absurd hzero (Digits.head?_toDigits_ne (by decide) (by decide) hn)
  have h : NumberText ([] ++ (Nat.toDigits 10 n ++ ([] ++ [])))
      (1 * (Nat.ofDigitChars 10 (Nat.toDigits 10 n) 0 + 0) * 10 ^ (0 : ℤ)) :=
    .mk (by simp [numberSigns]) hint .missing .missing
  simpa [Nat.ofDigitChars_ten_toDigits] using h

end FrontDoor.Json
