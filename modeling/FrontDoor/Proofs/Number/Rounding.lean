import FrontDoor.Number.Binary64
import Mathlib.Algebra.BigOperators.Group.List.Basic
import Mathlib.Algebra.Order.Ring.Int

/-!
# Rounding

Rounding keeps what is a multiple of the last place (`nearest_of_dvd`) and never reverses an order
(`nearest_mono`). So counts are written in the order of their size, whole numbers of less than 53
bits are doubles, and their sums are exact as long as they stay that small (`foldl_add`).
-/

namespace FrontDoor.Binary64

theorem one_pos : 0 < one := by
  unfold one
  generalize 1074 = k
  exact Nat.two_pow_pos k

theorem two_pow_dvd_one {k : Nat} (hk : k ≤ 1074) : 2 ^ k ∣ one := by
  unfold one
  generalize 1074 = k' at hk
  exact Nat.pow_dvd_pow 2 hk

theorem log2_mul_one {n : Nat} (hn : n ≠ 0) : (n * one).log2 = n.log2 + 1074 := by
  have hone : n * one ≠ 0 := Nat.mul_ne_zero hn (Nat.ne_of_gt one_pos)
  rw [Nat.log2_eq_iff hone]
  unfold one
  generalize 1074 = k
  constructor
  · rw [Nat.pow_add]
    exact Nat.mul_le_mul_right _ (Nat.log2_self_le hn)
  · rw [Nat.add_right_comm, Nat.pow_add]
    exact Nat.mul_lt_mul_of_pos_right Nat.lt_log2_self (Nat.two_pow_pos k)

/-- The least magnitude that is infinite. -/
def limit : Nat := Nat.pow 2 1024 * one

theorem lt_limit {n : Nat} (hn : n < 2 ^ 53) : n * one < limit := by
  have hpow : ∀ k, 53 ≤ k → n < Nat.pow 2 k := fun k hk =>
    Nat.lt_of_lt_of_le hn (Nat.pow_le_pow_right (by decide) hk)
  have hexponent := hpow 1024 (by decide)
  unfold limit
  generalize Nat.pow 2 1024 = bound at *
  exact Nat.mul_lt_mul_of_pos_right hexponent one_pos

/-! ## Whole quotients -/

theorem roundDiv_mul {den : Nat} (hden : 0 < den) (k : Nat) : roundDiv (k * den) den = k := by
  unfold roundDiv
  rw [Nat.mul_mod_left, if_pos (by omega), Nat.mul_div_cancel _ hden]

theorem div_le_roundDiv (num den : Nat) : num / den ≤ roundDiv num den := by
  unfold roundDiv
  split
  · exact Nat.le_refl _
  split
  · exact Nat.le_succ _
  · exact Nat.le_add_right _ _

theorem roundDiv_le_succ (num den : Nat) : roundDiv num den ≤ num / den + 1 := by
  unfold roundDiv
  split
  · exact Nat.le_succ _
  split
  · exact Nat.le_refl _
  · exact Nat.add_le_add_left (Nat.le_of_lt_succ (Nat.mod_lt _ (by decide))) _

theorem roundDiv_mono {num num' : Nat} (den : Nat) (h : num ≤ num') :
    roundDiv num den ≤ roundDiv num' den := by
  have hquotient : num / den ≤ num' / den := Nat.div_le_div_right h
  rcases Nat.lt_or_eq_of_le hquotient with hlt | heq
  · calc roundDiv num den ≤ num / den + 1 := roundDiv_le_succ num den
      _ ≤ num' / den := hlt
      _ ≤ roundDiv num' den := div_le_roundDiv num' den
  · -- Within one quotient the remainders decide.
    have hmod : num % den ≤ num' % den := by
      have hnum := Nat.div_add_mod num den
      have hnum' := Nat.div_add_mod num' den
      rw [heq] at hnum
      omega
    unfold roundDiv
    rw [heq]
    split_ifs <;> omega

/-! ## The nearest double -/

/-- The magnitude of the double nearest to a magnitude, were there no largest one. -/
def nearest (units : Nat) : Nat := roundDiv units (2 ^ dropped units) * 2 ^ dropped units

theorem round_eq (negative : Bool) (units : Nat) :
    round negative units 1 =
      if nearest units < limit then .finite negative (nearest units)
      else .infinity negative := by
  unfold round nearest limit
  generalize Nat.pow 2 1024 * one = bound
  simp only [Nat.div_one, Nat.one_mul]
  rfl

theorem nearest_of_dvd {units : Nat} (h : 2 ^ dropped units ∣ units) : nearest units = units := by
  unfold nearest
  generalize 2 ^ dropped units = step at h
  obtain ⟨k, rfl⟩ := h
  rcases Nat.eq_zero_or_pos step with rfl | hstep
  · rw [Nat.zero_mul, Nat.mul_zero]
  · rw [Nat.mul_comm step, roundDiv_mul hstep]

/-! Powers of two are doubles, and rounding leaves a magnitude on its side of them. -/

theorem nearest_le_two_pow {units k : Nat} (h : units ≤ 2 ^ k) (hk : dropped units ≤ k) :
    nearest units ≤ 2 ^ k := by
  have hpow : 2 ^ k = 2 ^ (k - dropped units) * 2 ^ dropped units := by
    rw [← Nat.pow_add, Nat.sub_add_cancel hk]
  calc nearest units
      ≤ roundDiv (2 ^ k) (2 ^ dropped units) * 2 ^ dropped units :=
        Nat.mul_le_mul_right _ (roundDiv_mono _ h)
    _ = 2 ^ k := by rw [hpow, roundDiv_mul (Nat.two_pow_pos _), ← hpow]

theorem two_pow_le_nearest {units k : Nat} (h : 2 ^ k ≤ units) (hk : dropped units ≤ k) :
    2 ^ k ≤ nearest units := by
  have hpow : 2 ^ k = 2 ^ (k - dropped units) * 2 ^ dropped units := by
    rw [← Nat.pow_add, Nat.sub_add_cancel hk]
  calc 2 ^ k = roundDiv (2 ^ k) (2 ^ dropped units) * 2 ^ dropped units := by
        rw [hpow, roundDiv_mul (Nat.two_pow_pos _)]
    _ ≤ nearest units := Nat.mul_le_mul_right _ (roundDiv_mono _ h)

theorem nearest_mono {units units' : Nat} (h : units ≤ units') :
    nearest units ≤ nearest units' := by
  by_cases hzero : units = 0
  · subst hzero
    rw [nearest_of_dvd (Nat.dvd_zero _)]
    exact Nat.zero_le _
  have hzero' : units' ≠ 0 := by omega
  have hlog : units.log2 ≤ units'.log2 :=
    (Nat.le_log2 hzero').mpr (Nat.le_trans (Nat.log2_self_le hzero) h)
  rcases Nat.lt_or_eq_of_le hlog with hlt | heq
  · -- A power of two lies between them.
    calc nearest units ≤ 2 ^ (units.log2 + 1) :=
          nearest_le_two_pow (Nat.le_of_lt Nat.lt_log2_self) (by unfold dropped; omega)
      _ ≤ 2 ^ units'.log2 := Nat.pow_le_pow_right (by decide) hlt
      _ ≤ nearest units' :=
          two_pow_le_nearest (Nat.log2_self_le hzero') (by unfold dropped; omega)
  · have hdropped : dropped units = dropped units' := by
      unfold dropped
      rw [heq]
    unfold nearest
    rw [hdropped]
    exact Nat.mul_le_mul_right _ (roundDiv_mono _ h)

/-! ## Order -/

theorem le_trans {x y z : Binary64} (hxy : x.le y = true) (hyz : y.le z = true) :
    x.le z = true := by
  cases x <;> cases y <;> cases z <;>
    simp only [le, Bool.or_eq_true, Bool.not_eq_true', decide_eq_true_eq,
      Bool.false_eq_true] at * <;>
    grind

/-- A larger count is never written as a smaller number. -/
theorem ofNat_le_ofNat {m n : Nat} (h : m ≤ n) : (ofNat m).le (ofNat n) = true := by
  have hnearest := nearest_mono (Nat.mul_le_mul_right one h)
  simp only [ofNat, round_eq]
  generalize nearest (m * one) = x, nearest (n * one) = y, limit = bound at *
  split_ifs with hx hy
  · simpa only [le, signed, Bool.false_eq_true, if_false, decide_eq_true_eq, Int.ofNat_le]
  · rfl
  · omega
  · rfl

/-! ## Whole numbers -/

theorem log2_le_of_lt {n : Nat} (hn : n < 2 ^ 53) : n.log2 ≤ 52 := by
  by_cases hzero : n = 0
  · subst hzero
    decide
  · exact Nat.le_of_lt_succ ((Nat.log2_lt hzero).mpr hn)

theorem dropped_whole {n : Nat} (hn : n < 2 ^ 53) : dropped (n * one) ≤ 1074 := by
  unfold dropped
  by_cases hzero : n = 0
  · subst hzero
    rw [Nat.zero_mul]
    decide
  · have hlog := log2_le_of_lt hn
    rw [log2_mul_one hzero]
    omega

theorem nearest_whole {n : Nat} (hn : n < 2 ^ 53) : nearest (n * one) = n * one :=
  nearest_of_dvd (Dvd.dvd.mul_left (two_pow_dvd_one (dropped_whole hn)) n)

theorem round_whole (negative : Bool) {n : Nat} (hn : n < 2 ^ 53) :
    round negative (n * one) 1 = .finite negative (n * one) := by
  have hsmall : nearest (n * one) < limit := (nearest_whole hn).trans_lt (lt_limit hn)
  calc round negative (n * one) 1 = .finite negative (nearest (n * one)) :=
        (round_eq negative _).trans (if_pos hsmall)
    _ = .finite negative (n * one) := congrArg _ (nearest_whole hn)

theorem ofNat_of_lt {n : Nat} (hn : n < 2 ^ 53) : ofNat n = .finite false (n * one) :=
  round_whole false hn

/-! ## Sums of whole numbers -/

/-- Whether a double is a whole number. -/
def IsWhole (x : Binary64) : Prop := ∃ negative n, x = .finite negative (n * one)

/-- An integer as a value, which is a double when it has at most 53 bits. Zero is not negative. -/
def ofInt (z : Int) : Binary64 := .finite (z < 0) (z.natAbs * one)

/-- The integer that a double is, if it is one. -/
def toInt : Binary64 → Int
  | .finite negative units => signed negative (units / one)
  | _ => 0

theorem ofInt_zero : ofInt 0 = zero := by
  simp [ofInt, zero]

theorem toInt_whole (negative : Bool) (n : Nat) :
    toInt (.finite negative (n * one)) = signed negative n := by
  simp only [toInt, Nat.mul_div_cancel _ one_pos]

theorem signed_mul (negative : Bool) (n k : Nat) :
    signed negative (n * k) = signed negative n * k := by
  cases negative with
  | false => exact Int.natCast_mul n k
  | true => exact (congrArg Neg.neg (Int.natCast_mul n k)).trans (Int.neg_mul ..).symm

theorem signed_natAbs (z : Int) : signed (z < 0) z.natAbs = z := by
  unfold signed
  split <;> simp only [decide_eq_true_eq] at * <;> omega

theorem isWhole_ofInt (z : Int) : (ofInt z).IsWhole := ⟨_, _, rfl⟩

theorem toInt_ofInt (z : Int) : (ofInt z).toInt = z := (toInt_whole _ _).trans (signed_natAbs z)

/-- Whole numbers are compared like integers. -/
theorem ofInt_le_ofNat_iff (z : Int) {n : Nat} (hn : n < 2 ^ 53) :
    (ofInt z).le (ofNat n) = true ↔ z ≤ n := by
  have hone : (0 : Int) < one := Int.natCast_pos.mpr one_pos
  rw [ofNat_of_lt hn, ofInt, le, decide_eq_true_eq, signed_mul, signed_mul, signed_natAbs]
  exact ⟨fun h => Int.le_of_mul_le_mul_right h hone,
    fun h => Int.mul_le_mul_of_nonneg_right h (Int.le_of_lt hone)⟩

/-- Adding a whole number is exact while the sum stays small. The sum of a number and its opposite
is the zero that is not negative, since one of the two is not. -/
theorem add_whole {z : Int} {x : Binary64} (hx : IsWhole x)
    (hsum : (z + x.toInt).natAbs < 2 ^ 53) : (ofInt z).add x = ofInt (z + x.toInt) := by
  obtain ⟨negative, n, rfl⟩ := hx
  rw [toInt_whole] at hsum ⊢
  have hexact : signed (z < 0) (z.natAbs * one) + signed negative (n * one) =
      (z + signed negative n) * one := by
    rw [signed_mul, signed_mul, signed_natAbs, Int.add_mul]
  have hone : (0 : Int) < one := Int.natCast_pos.mpr one_pos
  simp only [ofInt, add, hexact]
  split
  · next hzero =>
    have hsum : z + signed negative n = 0 :=
      (Int.mul_eq_zero.mp hzero).resolve_right (Int.ne_of_gt hone)
    have hsign : (decide (z < 0) && negative) = false := by
      cases negative with
      | false => exact Bool.and_false _
      | true =>
        have hneg : signed true n = -(n : Int) := rfl
        rw [hneg] at hsum
        have hnot : ¬z < 0 := by omega
        simp [hnot]
    simp [hsum, hsign]
  · have hneg : ((z + signed negative n) * one < 0) ↔ z + signed negative n < 0 :=
      ⟨fun h => Int.lt_of_mul_lt_mul_right (by rwa [Int.zero_mul]) (Int.le_of_lt hone),
        fun h => Int.mul_neg_of_neg_of_pos h hone⟩
    simp only [Int.natAbs_mul, Int.natAbs_natCast, hneg]
    exact round_whole _ hsum

/-- Summing up whole numbers is exact while their absolute values together stay small. -/
theorem foldl_add {xs : List Binary64} (hwhole : ∀ x ∈ xs, IsWhole x) (z : Int)
    (hsum : z.natAbs + (xs.map fun x => x.toInt.natAbs).sum < 2 ^ 53) :
    xs.foldl add (ofInt z) = ofInt (z + (xs.map toInt).sum) := by
  induction xs generalizing z with
  | nil => simp
  | cons x xs ih =>
    rw [List.map_cons, List.sum_cons] at hsum
    have hrest := ih (fun x' hx' => hwhole x' (List.mem_cons_of_mem x hx')) (z + x.toInt) (by omega)
    rw [List.foldl_cons, add_whole (hwhole x List.mem_cons_self) (by omega), hrest, List.map_cons,
      List.sum_cons, Int.add_assoc]

end FrontDoor.Binary64
