import FrontDoor.Proofs.Text.Numerals
import FrontDoor.Text.Front
import Mathlib.Data.List.TakeWhile

/-!
# Reading the front of a text

A numeral is read with its number when what follows does not go on like it
(`readBounded?_toDigits`), and a character exactly where it stands (`expectChar?_eq_some_iff`).
-/

namespace FrontDoor

/-! ## Numbers -/

/-- Whether a text does not begin with a digit of a base. -/
def NoDigit (base : ℕ) (cs : List Char) : Prop :=
  ∀ c ∈ cs.head?, (Digits.hexDigit? c).any (· < base) = false

section Bounded

variable {base limit n : ℕ} {digits : Option ℕ} {zeros : Bool} {rest : List Char}

theorem takeWhile_digits_append (ds : List Char)
    (hds : ∀ c ∈ ds, (Digits.hexDigit? c).any (· < base) = true) (hrest : NoDigit base rest) :
    (ds ++ rest).takeWhile (fun c => (Digits.hexDigit? c).any (· < base)) = ds := by
  rw [List.takeWhile_append_of_pos hds]
  cases rest with
  | nil => simp
  | cons c rest => simp [hrest c rfl]

theorem readBounded?_eq_none (h : NoDigit base rest) :
    readBounded? base limit digits zeros rest = none := by
  have hds := takeWhile_digits_append [] (by simp) h
  rw [List.nil_append] at hds
  unfold readBounded?
  dsimp only
  rw [hds]
  rfl

/-- A numeral is read with its number, if it is not too long and nothing goes on like it. -/
theorem readBounded?_toDigits (hbase : 1 < base) (h16 : base ≤ 16) (hlimit : n ≤ limit)
    (hdigits : ∀ k ∈ digits, (Nat.toDigits base n).length ≤ k) (hrest : NoDigit base rest) :
    readBounded? base limit digits zeros (Nat.toDigits base n ++ rest) = some (n, rest) := by
  have hall : ∀ c ∈ Nat.toDigits base n, (Digits.hexDigit? c).any (· < base) = true := by
    intro c hc
    obtain ⟨d, hd, rfl⟩ := Digits.exists_digit_of_mem_toDigits hbase hc
    rw [Digits.reads_hexDigit? h16 d hd]
    simpa using hd
  have hlong : digits.any (· < (Nat.toDigits base n).length) = false := by
    cases digits with
    | none => rfl
    | some k => simpa using hdigits k rfl
  have hempty : (Nat.toDigits base n).isEmpty = false := by
    rw [List.isEmpty_eq_false_iff]
    exact Nat.toDigits_ne_nil
  -- A zero stands in front only when it stands alone.
  have hzero : (!zeros && decide ((Nat.toDigits base n).head? = some '0') &&
      decide (1 < (Nat.toDigits base n).length)) = false := by
    rcases Nat.eq_zero_or_pos n with rfl | hn
    · rw [Nat.toDigits_zero]
      simp
    · rw [decide_eq_false (Digits.head?_toDigits_ne hbase h16 hn)]
      simp
  unfold readBounded?
  dsimp only
  rw [takeWhile_digits_append _ hall hrest,
    Digits.value?_toDigits (Digits.reads_hexDigit? h16) hbase]
  dsimp only
  rw [hempty, hlong, hzero, decide_eq_false (by omega), List.drop_left]
  rfl

/-- What is read is at least one digit. -/
theorem exists_digits_of_readBounded? {cs : List Char}
    (h : readBounded? base limit digits zeros cs = some (n, rest)) :
    ∃ ds, cs = ds ++ rest ∧ ∀ c ∈ ds, (Digits.hexDigit? c).any (· < base) = true := by
  refine ⟨cs.takeWhile fun c => (Digits.hexDigit? c).any (· < base), ?_, fun c hc =>
    List.mem_takeWhile_imp (p := fun c => (Digits.hexDigit? c).any (· < base)) hc⟩
  have hsplit := List.prefix_iff_eq_append.mp
    (List.takeWhile_prefix (l := cs) fun c => (Digits.hexDigit? c).any (· < base))
  unfold readBounded? at h
  dsimp only at h
  split at h
  · cases h
  · split at h
    · cases h
    · obtain ⟨-, rfl⟩ := Prod.mk.inj (Option.some.inj h)
      exact hsplit.symm

end Bounded

/-! ## Characters -/

theorem expectChar?_eq_some_iff {c : Char} {cs rest : List Char} :
    expectChar? c cs = some rest ↔ cs = c :: rest := by
  cases cs with
  | nil => simp [expectChar?]
  | cons c' cs =>
    unfold expectChar?
    split
    · next hc => simp [hc]
    · next hc => simp [hc]

theorem expectChar?_cons_self (c : Char) (cs : List Char) : expectChar? c (c :: cs) = some cs :=
  if_pos rfl

theorem expectChar?_of_head? {c : Char} {cs : List Char} (h : ∀ c' ∈ cs.head?, c' ≠ c) :
    expectChar? c cs = none := by
  cases cs with
  | nil => rfl
  | cons c' cs => exact if_neg (h c' rfl)

end FrontDoor
