import FrontDoor.Text.Digits
import Mathlib.Data.Nat.Notation

/-!
# Numerals are read back

A number has a numeral in every base up to sixteen. It consists of digits below the base
(`exists_digit_of_mem_toDigits`), begins with a zero for zero only (`head?_toDigits_ne`), and its
value is the number (`value?_toDigits`).
-/

namespace FrontDoor.Digits

/-- Whether a reader of digits takes the digits below a base for what they are. -/
def Reads (base : ℕ) (digit? : Char → Option ℕ) : Prop :=
  ∀ d < base, digit? (Nat.digitChar d) = some d

theorem reads_hexDigit? {base : ℕ} (h : base ≤ 16) : Reads base hexDigit? := by
  have hall : ∀ d < 16, hexDigit? (Nat.digitChar d) = some d := by decide
  exact fun d hd => hall d (by omega)

theorem reads_decimalDigit? : Reads 10 decimalDigit? := by
  unfold Reads
  decide

variable {base n : ℕ}

theorem value?_concat (digit? : Char → Option ℕ) (cs : List Char) (c : Char) :
    value? base digit? (cs ++ [c]) =
      (value? base digit? cs).bind fun n => (digit? c).map fun d => n * base + d := by
  rw [value?, List.foldl_append]
  rfl

/-- The value of a numeral is its number. -/
theorem value?_toDigits {digit? : Char → Option ℕ} (hread : Reads base digit?) (h : 1 < base) :
    value? base digit? (Nat.toDigits base n) = some n := by
  induction n using Nat.strongRecOn with
  | ind n ih =>
    rw [Nat.toDigits_eq_if h]
    split
    · next hlt =>
      show (some 0).bind (fun n' => (digit? (Nat.digitChar n)).map fun d => n' * base + d) = _
      rw [hread n hlt]
      simp
    · next hle =>
      have hsmaller : n / base < n := Nat.div_lt_self (by omega) h
      rw [value?_concat, ih _ hsmaller, Option.bind_some, hread _ (Nat.mod_lt n (by omega)),
        Option.map_some, Nat.div_add_mod']

theorem exists_digit_of_mem_toDigits (h : 1 < base) {c : Char} (hc : c ∈ Nat.toDigits base n) :
    ∃ d < base, c = Nat.digitChar d := by
  induction n using Nat.strongRecOn with
  | ind n ih =>
    rw [Nat.toDigits_eq_if h] at hc
    split at hc
    · next hlt => exact ⟨n, hlt, List.mem_singleton.mp hc⟩
    · next hle =>
      rcases List.mem_append.mp hc with hc | hc
      · exact ih _ (Nat.div_lt_self (by omega) h) hc
      · exact ⟨n % base, Nat.mod_lt n (by omega), List.mem_singleton.mp hc⟩

/-- Only the numeral of zero begins with a zero. -/
theorem head?_toDigits_ne (h : 1 < base) (h16 : base ≤ 16) (hn : 0 < n) :
    (Nat.toDigits base n).head? ≠ some '0' := by
  induction n using Nat.strongRecOn with
  | ind n ih =>
    rw [Nat.toDigits_eq_if h]
    split
    · next hlt =>
      have hzero : ∀ d < 16, 0 < d → Nat.digitChar d ≠ '0' := by decide
      intro heq
      exact hzero n (by omega) hn (Option.some.inj heq)
    · next hle =>
      have hfront := ih _ (Nat.div_lt_self (by omega) h) (Nat.div_pos (by omega) (by omega))
      rw [List.head?_append]
      cases hhead : (Nat.toDigits base (n / base)).head? with
      | none => exact absurd (List.head?_eq_none_iff.mp hhead) Nat.toDigits_ne_nil
      | some c =>
        rw [Option.some_or, ← hhead]
        exact hfront

end FrontDoor.Digits
