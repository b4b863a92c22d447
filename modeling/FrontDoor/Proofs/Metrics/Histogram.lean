import FrontDoor.Metrics.Requests
import FrontDoor.Proofs.Number.Rounding

/-!
# What a histogram has observed

When the bounds of a histogram grow, an observation raises the cumulative counts of exactly those
bounds that it does not exceed (`accumulate_place`), so that a bucket counts the observations up to
its bound (`cumulative_foldl_observe`). The order of the observations shows in no bucket
(`place_comm`); if it shows at all, it does so in the sum.
-/

namespace FrontDoor

namespace Histogram

/-- Bounds grow along the list. -/
def Ascending (bounds : List Binary64) : Prop := bounds.Pairwise fun b b' => b.le b'

/-- Adds to each count what is due to its bound. -/
def raise (due : Binary64 → Nat) (buckets : List Bucket) : List Bucket :=
  buckets.map fun b => ⟨b.bound, b.count + due b.bound⟩

theorem raise_raise (due due' : Binary64 → Nat) (buckets : List Bucket) :
    raise due' (raise due buckets) = raise (fun bound => due bound + due' bound) buckets := by
  simp [raise, Nat.add_assoc]

/-! ## One observation -/

theorem bounds_place (x : Binary64) (buckets : List Bucket) :
    (place x buckets).map Bucket.bound = buckets.map Bucket.bound := by
  induction buckets with
  | nil => rfl
  | cons b rest ih =>
    unfold place
    split
    · rfl
    · exact congrArg (b.bound :: ·) ih

theorem accumulate_add (before more : Nat) (buckets : List Bucket) :
    accumulate (before + more) buckets = raise (fun _ => more) (accumulate before buckets) := by
  induction buckets generalizing before with
  | nil => rfl
  | cons b rest ih =>
    rw [accumulate, Nat.add_right_comm, ih]
    rfl

theorem bounds_accumulate (before : Nat) (buckets : List Bucket) :
    (accumulate before buckets).map Bucket.bound = buckets.map Bucket.bound := by
  induction buckets generalizing before with
  | nil => rfl
  | cons b rest ih => exact congrArg (b.bound :: ·) (ih _)

/-- A value below a bound is below all the bounds that follow. -/
theorem accumulate_place {buckets : List Bucket} (h : Ascending (buckets.map Bucket.bound))
    (x : Binary64) (before : Nat) : accumulate before (place x buckets) =
      raise (fun bound => if x.le bound then 1 else 0) (accumulate before buckets) := by
  induction buckets generalizing before with
  | nil => rfl
  | cons b rest ih =>
    obtain ⟨hfirst, hrest⟩ := List.pairwise_cons.mp ((List.map_cons ..) ▸ h)
    by_cases hx : x.le b.bound
    · have hlater : ∀ b' ∈ accumulate (before + b.count) rest, x.le b'.bound = true := by
        intro b' hb'
        refine Binary64.le_trans hx (hfirst _ ?_)
        rw [← bounds_accumulate (before + b.count)]
        exact List.mem_map_of_mem hb'
      rw [place, if_pos hx, accumulate, accumulate, ← Nat.add_assoc, accumulate_add]
      refine congrArg₂ List.cons ?_ (List.map_congr_left fun b' hb' => ?_) <;> dsimp only
      · rw [if_pos hx]
      · rw [if_pos (hlater b' hb')]
    · rw [place, if_neg hx, accumulate, ih hrest, accumulate]
      refine congrArg₂ List.cons ?_ rfl
      dsimp only
      rw [if_neg hx, Nat.add_zero]

theorem place_comm (x y : Binary64) (buckets : List Bucket) :
    place x (place y buckets) = place y (place x buckets) := by
  induction buckets with
  | nil => rfl
  | cons b rest ih =>
    by_cases hx : x.le b.bound <;> by_cases hy : y.le b.bound <;> simp [place, hx, hy, ih]

/-! ## Many observations -/

theorem count_foldl_observe (h : Histogram) (xs : List Binary64) :
    (xs.foldl observe h).count = h.count + xs.length := by
  induction xs generalizing h with
  | nil => rfl
  | cons x xs ih =>
    rw [List.foldl_cons, ih, List.length_cons, Nat.add_comm xs.length, ← Nat.add_assoc]
    rfl

theorem sum_foldl_observe (h : Histogram) (xs : List Binary64) :
    (xs.foldl observe h).sum = xs.foldl Binary64.add h.sum := by
  induction xs generalizing h with
  | nil => rfl
  | cons x xs ih => exact ih (h.observe x)

theorem buckets_foldl_observe (h : Histogram) (xs : List Binary64) :
    (xs.foldl observe h).buckets = xs.foldl (fun buckets x => place x buckets) h.buckets := by
  induction xs generalizing h with
  | nil => rfl
  | cons x xs ih => exact ih (h.observe x)

theorem cumulative_foldl {h : Histogram} (hbounds : Ascending (h.buckets.map Bucket.bound))
    (xs : List Binary64) : (xs.foldl observe h).cumulative =
      raise (fun bound => xs.countP (·.le bound)) h.cumulative := by
  induction xs generalizing h with
  | nil => simp [raise]
  | cons x xs ih =>
    have hnext : Ascending ((h.observe x).buckets.map Bucket.bound) :=
      (bounds_place x h.buckets).symm ▸ hbounds
    rw [List.foldl_cons, ih hnext, cumulative, observe, accumulate_place hbounds, raise_raise,
      cumulative]
    congr
    funext bound
    rw [List.countP_cons, Nat.add_comm]

theorem accumulate_zeros (before : Nat) (bounds : List Binary64) :
    accumulate before (bounds.map (⟨·, 0⟩)) = bounds.map (⟨·, before⟩) := by
  induction bounds with
  | nil => rfl
  | cons bound rest ih => exact congrArg (⟨bound, before⟩ :: ·) ih

/-- A new histogram counts under each bound the observations that do not exceed it. -/
theorem cumulative_foldl_observe {bounds : List Binary64} (hbounds : Ascending bounds)
    (xs : List Binary64) :
    (xs.foldl observe (ofBounds bounds)).cumulative =
      bounds.map fun bound => ⟨bound, xs.countP (·.le bound)⟩ := by
  have hnew : (ofBounds bounds).buckets.map Bucket.bound = bounds := by
    simp [ofBounds, Function.comp_def]
  rw [cumulative_foldl (hnew.symm ▸ hbounds), cumulative, ofBounds, accumulate_zeros, raise,
    List.map_map]
  exact List.map_congr_left fun bound _ => congrArg (Bucket.mk bound) (Nat.zero_add _)

/-- Under a larger bound there are no fewer observations. -/
theorem countP_le_mono {bound bound' : Binary64} (h : bound.le bound') (xs : List Binary64) :
    xs.countP (·.le bound) ≤ xs.countP (·.le bound') :=
  List.countP_mono_left fun _ _ hx => Binary64.le_trans hx h

/-- Observations in another order make the same histogram if they have the same sum. -/
theorem foldl_observe_perm {xs ys : List Binary64} (hperm : xs.Perm ys) (h : Histogram)
    (hsum : xs.foldl Binary64.add h.sum = ys.foldl Binary64.add h.sum) :
    xs.foldl observe h = ys.foldl observe h := by
  have hcomm : RightCommutative fun (buckets : List Bucket) x => place x buckets :=
    ⟨fun buckets x y => place_comm y x buckets⟩
  have hbuckets : (xs.foldl observe h).buckets = (ys.foldl observe h).buckets := by
    rw [buckets_foldl_observe, buckets_foldl_observe, hperm.foldl_eq]
  have hcount : (xs.foldl observe h).count = (ys.foldl observe h).count := by
    rw [count_foldl_observe, count_foldl_observe, hperm.length_eq]
  rw [← sum_foldl_observe, ← sum_foldl_observe] at hsum
  generalize xs.foldl observe h = a at *
  generalize ys.foldl observe h = b at *
  cases a
  cases b
  cases hbuckets
  cases hcount
  cases hsum
  rfl

end Histogram

namespace RequestMetrics

/-- The bound of a latency bucket, in nanoseconds. -/
def latencyBound (i : Nat) : Nat := 1000 * 4 ^ i

theorem latencyBounds_eq :
    latencyBounds = (List.range 14).map fun i => .ofNat (latencyBound i) := rfl

theorem latencyBound_lt {i : Nat} (hi : i < 14) : latencyBound i < 2 ^ 53 := by
  have hpow : 4 ^ i ≤ 4 ^ 13 := Nat.pow_le_pow_right (by decide) (Nat.le_of_lt_succ hi)
  unfold latencyBound
  omega

theorem ascending_latencyBounds : Histogram.Ascending latencyBounds := by
  rw [latencyBounds_eq, Histogram.Ascending, List.pairwise_map]
  refine List.pairwise_lt_range.imp fun hlt => Binary64.ofNat_le_ofNat ?_
  exact Nat.mul_le_mul_left 1000 (Nat.pow_le_pow_right (by decide) (Nat.le_of_lt hlt))

end RequestMetrics

end FrontDoor
