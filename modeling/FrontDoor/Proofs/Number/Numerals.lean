import FrontDoor.Number.Shortest
import FrontDoor.Proofs.Number.Rounding

/-!
# Numerals of doubles

The shortest numeral of a whole number of less than 53 bits is its decimal numeral (`text_ofNat`):
the doubles around it are no further than one apart, so that no other whole number reads back as it,
and the search comes to the grid of the ones at the latest. No numeral breaks a line
(`newline_not_mem_text`).
-/

namespace FrontDoor.Binary64

variable {n : Nat}

/-! ## The grids of whole numbers -/

theorem neighbourhood_whole (hn : n < 2 ^ 53) :
    ∃ below above closed,
      neighbourhood (n * one) = ⟨4 * (n * one) - below, 4 * (n * one) + above, closed⟩ ∧
      0 < below ∧ below ≤ 2 * one ∧ 0 < above ∧ above ≤ 2 * one := by
  have hgap : Nat.pow 2 (dropped (n * one)) ≤ one :=
    Nat.le_of_dvd one_pos (two_pow_dvd_one (dropped_whole hn))
  have hpos : 0 < Nat.pow 2 (dropped (n * one)) := Nat.two_pow_pos _
  refine ⟨_, _, _, rfl, ?_, ?_, ?_, ?_⟩
  · split <;> omega
  · split <;> omega
  · omega
  · omega

/-- Of all whole numbers only the number itself lies among the numbers that round to it. -/
theorem contains_whole (hzero : 0 < n) (hn : n < 2 ^ 53) (m step : Nat) :
    (neighbourhood (n * one)).contains m (step * 4 * one) 1 = decide (m * step = n) := by
  obtain ⟨below, above, closed, hnear, hbelow, hbelow', habove, habove'⟩ := neighbourhood_whole hn
  have hone := one_pos
  have hpoint : m * (step * 4 * one) = 4 * (m * step * one) := by
    simp only [Nat.mul_assoc, Nat.mul_left_comm]
  have hself : 0 < n * one := Nat.mul_pos hzero hone
  rw [hnear, Bool.eq_iff_iff, Neighbourhood.contains]
  dsimp only
  rw [hpoint]
  clear hpoint hnear
  generalize m * step = k
  rcases Nat.lt_trichotomy k n with hlt | rfl | hgt
  · have hfar : (k + 1) * one ≤ n * one := Nat.mul_le_mul_right one hlt
    rw [Nat.succ_mul] at hfar
    split <;> simp only [Bool.and_eq_true, decide_eq_true_eq] <;> omega
  · split <;> simp only [Bool.and_eq_true, decide_eq_true_eq, iff_true] <;> omega
  · have hfar : (n + 1) * one ≤ k * one := Nat.mul_le_mul_right one hgt
    rw [Nat.succ_mul] at hfar
    split <;> simp only [Bool.and_eq_true, decide_eq_true_eq] <;> omega

theorem onGrid?_whole (hzero : 0 < n) (hn : n < 2 ^ 53) (e : Nat) :
    onGrid? (n * one) e = if 10 ^ e ∣ n then some (n / 10 ^ e) else none := by
  have hten : tenTo e = (10 ^ e, 1) := if_pos (Int.natCast_nonneg e)
  have hlower : 4 * (n * one) * 1 / (10 ^ e * 4 * one) = n / 10 ^ e := by
    rw [Nat.mul_one, ← Nat.mul_assoc, Nat.mul_comm 4 n, Nat.mul_assoc n 4, Nat.mul_assoc (10 ^ e),
      Nat.mul_div_mul_right _ _ (Nat.mul_pos (by decide) one_pos)]
  have hupper : (n / 10 ^ e + 1) * 10 ^ e ≠ n :=
    Nat.ne_of_gt (Nat.lt_mul_of_div_lt (Nat.lt_succ_self _) (Nat.pow_pos (by decide)))
  have hinside : n / 10 ^ e * 10 ^ e = n ↔ 10 ^ e ∣ n :=
    ⟨fun h => ⟨n / 10 ^ e, by rw [Nat.mul_comm, h]⟩, Nat.div_mul_cancel⟩
  simp only [onGrid?, hten, hlower, contains_whole hzero hn, hupper, decide_false, Bool.false_and,
    Bool.false_eq_true, if_false, decide_eq_true_eq, hinside]

/-! ## The search -/

theorem decimalExponent_whole (hzero : 0 < n) (hn : n < 2 ^ 53) :
    1 ≤ decimalExponent (n * one) ∧ decimalExponent (n * one) ≤ 17 := by
  have hlog := log2_le_of_lt hn
  have hguess : ((n * one).log2 - 1074 : Int) * 1233 / 4096 =
      ((n.log2 * 1233 / 4096 : Nat) : Int) := by
    rw [log2_mul_one (Nat.ne_of_gt hzero)]
    omega
  have hbound : n.log2 * 1233 / 4096 ≤ 15 := by omega
  unfold decimalExponent
  simp only [hguess]
  generalize n.log2 * 1233 / 4096 = guess at *
  cases guess with
  | zero =>
    -- A number that is not zero is not below the zeroth power of ten.
    have hten : tenTo 0 = (1, 1) := rfl
    have habove : ¬n * one * 1 < 1 * one := by
      rw [Nat.mul_one]
      exact Nat.not_lt.mpr (Nat.mul_le_mul_right one hzero)
    simp only [Int.natCast_zero, hten, habove, decide_false, Bool.false_eq_true, if_false]
    split <;> decide
  | succ guess =>
    split
    · omega
    · split <;> omega

theorem dropZero_spec (d e : Nat) :
    ∃ d' e' : Nat, dropZero d e = (d', (e' : Int)) ∧ d' * 10 ^ e' = d * 10 ^ e := by
  unfold dropZero
  split
  · next hlast =>
    refine ⟨d / 10, e + 1, rfl, ?_⟩
    rw [Nat.pow_succ', ← Nat.mul_assoc, Nat.div_mul_cancel (Nat.dvd_of_mod_eq_zero hlast)]
  · exact ⟨d, e, rfl, rfl⟩

theorem shortestDigits_whole (hzero : 0 < n) (hn : n < 2 ^ 53) :
    ∃ d e : Nat, shortestDigits (n * one) = (d, (e : Int)) ∧ d * 10 ^ e = n := by
  obtain ⟨hlow, hhigh⟩ := decimalExponent_whole hzero hn
  obtain ⟨top, htop⟩ := Int.eq_ofNat_of_zero_le (Int.le_trans (by decide) hlow)
  rw [htop] at hlow hhigh
  simp only [shortestDigits, htop]
  generalize hsearch : (fun k : Nat => (onGrid? (n * one) (top - (k + 1 : Nat))).map
    (dropZero · (top - (k + 1 : Nat)))) = search
  have hgrid : ∀ k, k < top → search k = (onGrid? (n * one) (top - (k + 1) : Nat)).map
      (dropZero · (top - (k + 1) : Nat)) := by
    intro k hk
    rw [← hsearch]
    simp only [Int.ofNat_sub (Nat.succ_le_of_lt hk)]
  -- The grid of the ones is among those searched, and has the number on it.
  have hones : ((List.range top).findSome? search).isSome := by
    refine List.findSome?_isSome_iff.mpr ⟨top - 1, List.mem_range.mpr (by omega), ?_⟩
    rw [hgrid _ (by omega), onGrid?_whole hzero hn, if_pos]
    · rfl
    · rw [show top - (top - 1 + 1) = 0 by omega]
      exact Nat.one_dvd n
  obtain ⟨found, hfound⟩ := Option.isSome_iff_exists.mp hones
  have hrange : List.range 17 = List.range top ++ (List.range (17 - top)).map (top + ·) := by
    rw [← List.range_add, Nat.add_sub_cancel' (Int.ofNat_le.mp hhigh)]
  rw [hrange, List.findSome?_append, hfound, Option.some_or, Option.getD_some]
  -- What is found first lies on a grid of whole numbers.
  obtain ⟨k, hk, hfound⟩ := List.exists_of_findSome?_eq_some hfound
  rw [hgrid k (List.mem_range.mp hk), onGrid?_whole hzero hn] at hfound
  split at hfound
  · next hdvd =>
    obtain ⟨d, e, hdrop, hvalue⟩ := dropZero_spec (n / 10 ^ (top - (k + 1))) (top - (k + 1))
    exact ⟨d, e, (Option.some.inj hfound).symm.trans hdrop, hvalue.trans (Nat.div_mul_cancel hdvd)⟩
  · cases hfound

/-! ## Positional numerals -/

theorem toDigits_mul_ten_pow {d : Nat} (hd : 0 < d) (e : Nat) :
    Nat.toDigits 10 (d * 10 ^ e) = Nat.toDigits 10 d ++ List.replicate e '0' := by
  induction e with
  | zero => simp
  | succ e ih =>
    have hpos : 0 < d * 10 ^ e := Nat.mul_pos hd (Nat.pow_pos (by decide))
    have happend : Nat.toDigits 10 (d * 10 ^ e) ++ Nat.toDigits 10 0 =
        Nat.toDigits 10 (10 * (d * 10 ^ e) + 0) :=
      Nat.toDigits_append_toDigits (by decide) hpos (by decide)
    rw [Nat.pow_succ, ← Nat.mul_assoc, Nat.mul_comm _ 10, ← Nat.add_zero (10 * _), ← happend, ih,
      Nat.toDigits_zero, List.append_assoc, List.replicate_succ']

theorem positional_natCast {d : Nat} (hd : 0 < d) (e : Nat) :
    positional d e = Nat.toDigits 10 (d * 10 ^ e) := by
  rw [toDigits_mul_ten_pow hd, positional]
  exact if_pos (Int.natCast_nonneg e)

theorem text_zero : (finite false 0).text = "0" := rfl

theorem text_of_pos {units : Nat} (h : 0 < units) : (finite false units).text =
    String.ofList (positional (shortestDigits units).1 (shortestDigits units).2) := by
  simp only [text, Nat.ne_of_gt h, if_false, Bool.false_eq_true]

/-- A whole number of less than 53 bits is written as its decimal numeral. -/
theorem text_ofNat (hn : n < 2 ^ 53) : (ofNat n).text = Digits.decimal n := by
  rw [ofNat_of_lt hn]
  rcases Nat.eq_zero_or_pos n with rfl | hzero
  · rw [Nat.zero_mul, text_zero]
    decide
  · obtain ⟨d, e, hdigits, hvalue⟩ := shortestDigits_whole hzero hn
    have hd : 0 < d := Nat.pos_of_mul_pos_right (hvalue ▸ hzero)
    rw [text_of_pos (Nat.mul_pos hzero one_pos), hdigits, positional_natCast hd, hvalue]
    rfl

/-! ## Characters of numerals -/

theorem mem_positional {digits : Nat} {e : Int} {c : Char} (hc : c ∈ positional digits e) :
    c.isDigit ∨ c = '.' := by
  have hdigit : ∀ k, c ∈ List.replicate k '0' ++ Nat.toDigits 10 digits → c.isDigit := by
    intro k hmem
    rcases List.mem_append.mp hmem with hmem | hmem
    · rw [List.eq_of_mem_replicate hmem]
      rfl
    · exact Nat.isDigit_of_mem_toDigits (by decide) (by decide) hmem
  unfold positional at hc
  simp only at hc
  split at hc
  · refine .inl (hdigit e.toNat ?_)
    exact List.mem_append.mpr (List.mem_append.mp hc).symm
  · rw [List.mem_append, List.mem_append, List.mem_singleton] at hc
    rcases hc with (hc | hc) | hc
    · exact .inl (hdigit _ (List.mem_of_mem_take hc))
    · exact .inr hc
    · exact .inl (hdigit _ (List.mem_of_mem_drop hc))

theorem newline_not_mem_text (x : Binary64) : '\n' ∉ x.text.toList := by
  have hpositional : ∀ digits e, '\n' ∉ positional digits e := by
    intro digits e hmem
    rcases mem_positional hmem with h | h <;> revert h <;> decide
  cases x with
  | nan => decide
  | infinity negative => cases negative <;> decide
  | finite negative units =>
    have hmagnitude : '\n' ∉ (if units = 0 then ['0']
        else positional (shortestDigits units).1 (shortestDigits units).2) := by
      split
      · decide
      · exact hpositional _ _
    unfold text
    rw [String.toList_ofList]
    split
    · exact fun hmem => hmagnitude ((List.mem_cons.mp hmem).resolve_left (by decide))
    · exact hmagnitude

end FrontDoor.Binary64
