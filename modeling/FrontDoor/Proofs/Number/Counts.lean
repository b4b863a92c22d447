import FrontDoor.Number.Count
import Mathlib.Data.Nat.Notation

/-!
# Which texts are counts

A count is read digit by digit, and refused at the first digit with which it is too large. Since a
number only grows with more digits, that is no other rule than the one for the whole text
(`read_eq_ok_iff`): digits behind a plus sign or none, and their number in range.
-/

namespace FrontDoor.Count

/-- A text of a count: at least one decimal digit, behind a plus sign or none. -/
inductive CountText : List Char → UInt64 → Prop where
  | mk {sign digits : List Char} {n : UInt64} : sign = [] ∨ sign = ['+'] → digits ≠ [] →
      (∀ c ∈ digits, c.isDigit) → Nat.ofDigitChars 10 digits 0 = n.toNat →
      CountText (sign ++ digits) n

/-! ## Digits -/

theorem isDigit_iff {c : Char} : c.isDigit = true ↔ '0' ≤ c ∧ c ≤ '9' := by
  rw [Char.isDigit, Bool.and_eq_true, decide_eq_true_eq, decide_eq_true_eq]
  exact Iff.rfl

theorem decimalDigit?_eq (c : Char) :
    Digits.decimalDigit? c = if c.isDigit then some (c.toNat - '0'.toNat) else none := by
  simp only [Digits.decimalDigit?, isDigit_iff]

/-- A number does not get smaller when digits are appended. -/
theorem le_ofDigitChars (cs : List Char) (m : ℕ) : m ≤ Nat.ofDigitChars 10 cs m := by
  rw [Nat.ofDigitChars_eq_ofDigitChars_zero]
  have hpos : 0 < 10 ^ cs.length := Nat.pow_pos (by decide)
  exact Nat.le_add_right_of_le (Nat.le_mul_of_pos_left m hpos)

theorem push_eq_ok_iff {m n : ℕ} {c : Char} :
    push m c = .ok n ↔
      c.isDigit = true ∧ n = 10 * m + (c.toNat - '0'.toNat) ∧ n < UInt64.size := by
  unfold push
  rw [decimalDigit?_eq]
  by_cases hc : c.isDigit = true
  · rw [if_pos hc]
    dsimp only
    split
    · next hlt =>
      rw [Except.ok.injEq]
      refine ⟨?_, fun h => h.2.1.symm⟩
      rintro rfl
      exact ⟨hc, rfl, hlt⟩
    · next hge =>
      refine ⟨fun h => (nomatch h), ?_⟩
      rintro ⟨-, rfl, hlt⟩
      exact absurd hlt hge
  · rw [if_neg hc]
    exact ⟨fun h => (nomatch h), fun h => absurd h.1 hc⟩

/-- Digits are taken when all of them are digits and their number is in range. -/
theorem foldlM_push_eq_ok_iff {cs : List Char} {m n : ℕ} (hm : m < UInt64.size) :
    cs.foldlM push m = .ok n ↔
      (∀ c ∈ cs, c.isDigit = true) ∧ Nat.ofDigitChars 10 cs m = n ∧ n < UInt64.size := by
  induction cs generalizing m with
  | nil =>
    rw [List.foldlM_nil, Nat.ofDigitChars_nil]
    refine ⟨?_, fun h => congrArg Except.ok h.2.1⟩
    rintro ⟨⟩
    exact ⟨by simp, rfl, hm⟩
  | cons c cs ih =>
    rw [List.foldlM_cons, Nat.ofDigitChars_cons, List.forall_mem_cons]
    constructor
    · intro h
      cases hpush : push m c with
      | error e => simp [hpush, bind, Except.bind] at h
      | ok m' =>
        rw [hpush] at h
        obtain ⟨hc, rfl, hlt⟩ := push_eq_ok_iff.mp hpush
        obtain ⟨hcs, hn⟩ := (ih hlt).mp h
        exact ⟨⟨hc, hcs⟩, hn⟩
    · rintro ⟨⟨hc, hcs⟩, hn, hlt⟩
      have hlt' := Nat.lt_of_le_of_lt (le_ofDigitChars cs _) (hn ▸ hlt)
      rw [push_eq_ok_iff.mpr ⟨hc, rfl, hlt'⟩]
      exact (ih hlt').mpr ⟨hcs, hn, hlt⟩

theorem readDigits_eq_ok_iff {cs : List Char} {n : UInt64} :
    readDigits cs = .ok n ↔
      cs ≠ [] ∧ (∀ c ∈ cs, c.isDigit = true) ∧ Nat.ofDigitChars 10 cs 0 = n.toNat := by
  cases cs with
  | nil => simp [readDigits]
  | cons c cs =>
    have hread : readDigits (c :: cs) = ((c :: cs).foldlM push 0).map UInt64.ofNat := rfl
    rw [hread]
    constructor
    · intro h
      cases hfold : (c :: cs).foldlM push 0 with
      | error e => simp [hfold, Except.map] at h
      | ok k =>
        rw [hfold] at h
        obtain ⟨hcs, hk, hlt⟩ := (foldlM_push_eq_ok_iff (by decide)).mp hfold
        refine ⟨by simp, hcs, hk.trans ?_⟩
        rw [← Except.ok.inj h, UInt64.toNat_ofNat_of_lt' hlt]
    · rintro ⟨-, hcs, hn⟩
      rw [(foldlM_push_eq_ok_iff (by decide)).mpr ⟨hcs, hn, n.toNat_lt⟩]
      exact congrArg Except.ok UInt64.ofNat_toNat

/-- Without a plus sign in front the digits are all there is. -/
theorem read_of_digits {cs : List Char} (hne : cs ≠ []) (hcs : ∀ c ∈ cs, c.isDigit = true) :
    read cs = readDigits cs := by
  unfold read
  split
  · exact absurd rfl hne
  · exact absurd (hcs '+' List.mem_cons_self) (by decide)
  · rfl

theorem read_eq_ok_iff {cs : List Char} {n : UInt64} : read cs = .ok n ↔ CountText cs n := by
  constructor
  · intro h
    unfold read at h
    split at h
    · cases h
    · obtain ⟨hne, hcs, hn⟩ := readDigits_eq_ok_iff.mp h
      exact .mk (.inr rfl) hne hcs hn
    · obtain ⟨hne, hcs, hn⟩ := readDigits_eq_ok_iff.mp h
      exact .mk (.inl rfl) hne hcs hn
  · rintro ⟨rfl | rfl, hne, hcs, hn⟩
    · rw [List.nil_append, read_of_digits hne hcs]
      exact readDigits_eq_ok_iff.mpr ⟨hne, hcs, hn⟩
    · exact readDigits_eq_ok_iff.mpr ⟨hne, hcs, hn⟩

/-- What is written for a count is a text of it. -/
theorem countText_text (n : UInt64) : CountText (text n).toList n := by
  rw [text, Digits.decimal, String.toList_ofList]
  have hdigits : ∀ c ∈ Nat.toDigits 10 n.toNat, c.isDigit = true :=
    fun _ hc => Nat.isDigit_of_mem_toDigits (by decide) (by decide) hc
  rw [← List.nil_append (Nat.toDigits 10 n.toNat)]
  exact .mk (.inl rfl) Nat.toDigits_ne_nil hdigits
    (Nat.ofDigitChars_toDigits (by decide) (by decide))

end FrontDoor.Count
