import FrontDoor.Proofs.Metrics.Uses
import Mathlib.Algebra.Order.BigOperators.Group.List

/-!
# Uses in another order

The order in which a set is used shows in a scrape through the sums of latencies alone, which are
rounded as they are added up. As long as the latencies are whole numbers that together stay below
2^53 nothing is rounded, and uses in another order leave the very same series behind (`used_perm`).
-/

namespace FrontDoor

namespace Use

/-- The latency that a use records. -/
def nanos? : Use → Option Binary64
  | .observe _ _ nanos => some nanos
  | _ => none

/-- Whether all latencies are whole numbers, and their absolute values together below 2^53. -/
structure Exact (uses : List Use) : Prop where
  whole : ∀ x ∈ uses.filterMap nanos?, x.IsWhole
  small : ((uses.filterMap nanos?).map fun x => x.toInt.natAbs).sum < 2 ^ 53

end Use

namespace RequestMetrics

variable {uses uses' : List Use}

theorem latenciesOf_sublist (uses : List Use) (endpoint method : String) :
    (latenciesOf uses endpoint method).Sublist (uses.filterMap Use.nanos?) := by
  induction uses with
  | nil => exact List.Sublist.slnil
  | cons u uses ih =>
    cases u with
    | observe endpoint' method' nanos =>
      by_cases hlabels : endpoint' = endpoint ∧ method' = method
      · simpa [latenciesOf, Use.observed?, Use.nanos?, hlabels] using ih.cons_cons nanos
      · simpa [latenciesOf, Use.observed?, Use.nanos?, hlabels] using ih.cons nanos
    | countError | requestCount | errorCount => exact ih

/-- The sum of the latencies under an endpoint and a method does not depend on their order. -/
theorem sum_latenciesOf_perm (hperm : uses.Perm uses') (hexact : Use.Exact uses)
    (endpoint method : String) :
    (latenciesOf uses endpoint method).foldl Binary64.add .zero =
      (latenciesOf uses' endpoint method).foldl Binary64.add .zero := by
  have hlatencies : (latenciesOf uses endpoint method).Perm (latenciesOf uses' endpoint method) :=
    hperm.filterMap _
  have hsublist := latenciesOf_sublist uses endpoint method
  have hwhole : ∀ x ∈ latenciesOf uses endpoint method, x.IsWhole := fun x hx =>
    hexact.whole x (hsublist.mem hx)
  have hsmall : ((latenciesOf uses endpoint method).map fun x => x.toInt.natAbs).sum < 2 ^ 53 :=
    Nat.lt_of_le_of_lt ((hsublist.map _).sum_le_sum fun _ _ => Nat.zero_le _) hexact.small
  have hsmall' : ((latenciesOf uses' endpoint method).map fun x => x.toInt.natAbs).sum < 2 ^ 53 :=
    (hlatencies.map fun x => x.toInt.natAbs).sum_eq ▸ hsmall
  rw [← Binary64.ofInt_zero, Binary64.foldl_add hwhole 0 (by simpa using hsmall),
    Binary64.foldl_add (fun x hx => hwhole x (hlatencies.mem_iff.mpr hx)) 0
      (by simpa using hsmall'), (hlatencies.map _).sum_eq]

theorem latencies_used_perm (hperm : uses.Perm uses') (h : Use.Distinct uses)
    (hexact : Use.Exact uses) : (used uses).latencies = (used uses').latencies := by
  rw [used, used, latencies_foldl, latencies_foldl]
  refine SeriesTable.recordAll_perm noLatencies (hperm.filterMap _) (untangled_latencyRecords h) ?_
  intro r hr
  obtain ⟨p, -, hlabels⟩ := List.mem_map.mp (labels_latencyRecords uses ▸ List.mem_map_of_mem hr)
  rw [← hlabels, requestLabels, total_latencyRecords, total_latencyRecords]
  exact Histogram.foldl_observe_perm (hperm.filterMap _) _
    (sum_latenciesOf_perm hperm hexact p.1 p.2)

theorem failures_used_perm (hperm : uses.Perm uses') (h : Use.Distinct uses) :
    (used uses).failures = (used uses').failures := by
  rw [used, used, failures_foldl, failures_foldl]
  refine SeriesTable.recordAll_perm 0 (hperm.filterMap _) (untangled_failureRecords h) ?_
  intro r hr
  obtain ⟨p, -, hlabels⟩ := List.mem_map.mp (labels_failureRecords uses ▸ List.mem_map_of_mem hr)
  rw [← hlabels, failureTuple, total_failureRecords, total_failureRecords, failuresOf, failuresOf,
    hperm.countP_eq]

/-- A set that is used in another order has the same series. -/
theorem used_perm (hperm : uses.Perm uses') (h : Use.Distinct uses) (hexact : Use.Exact uses) :
    used uses = used uses' := by
  have hlatencies := latencies_used_perm hperm h hexact
  have hfailures := failures_used_perm hperm h
  generalize used uses = m at *
  generalize used uses' = m' at *
  cases m
  cases m'
  cases hlatencies
  cases hfailures
  rfl

end RequestMetrics

namespace Hub

/-- **Exposition does not depend on the order of recording.** Two runs in which a set is registered
alone and whose uses are the same but for their order answer a scrape with the same text, if no two
lists of label values of one family read the same and the latencies are whole numbers whose absolute
values add up to less than 2^53. -/
theorem exposition_of_reordered_run (before after before' after' : List Use)
    (hperm : (before ++ after).Perm (before' ++ after')) (h : Use.Distinct (before ++ after))
    (hexact : Use.Exact (before ++ after)) :
    ∃ text,
      ((start.after (soloRun before after)).perform (.encode 0)).1 = .exposition (.ok text) ∧
      ((start.after (soloRun before' after')).perform (.encode 0)).1 = .exposition (.ok text) := by
  rw [after_soloRun, after_soloRun, ← RequestMetrics.used_perm hperm h hexact]
  exact ⟨_, encode_solo _, encode_solo _⟩

/-- Two latencies under one endpoint and method, a failure and a read, in two orders. -/
theorem exposition_of_swapped_uses :
    let uses := [Use.observe "/key" "GET" (.ofInt 5000), .countError "/key" "PUT" 405,
      .observe "/key" "GET" (.ofInt (-7)), .requestCount "/" "GET"]
    let uses' := [Use.requestCount "/" "GET", .observe "/key" "GET" (.ofInt (-7)),
      .observe "/key" "GET" (.ofInt 5000), .countError "/key" "PUT" 405]
    (uses ++ []).Perm ([] ++ uses') ∧ Use.Distinct (uses ++ []) ∧ Use.Exact (uses ++ []) ∧
      ((start.after (soloRun uses [])).perform (.encode 0)).1 =
        ((start.after (soloRun [] uses')).perform (.encode 0)).1 := by
  intro uses uses'
  have hperm : (uses ++ []).Perm ([] ++ uses') := by decide +kernel
  have hdistinct : Use.Distinct (uses ++ []) := ⟨by decide +kernel, by decide +kernel⟩
  have hexact : Use.Exact (uses ++ []) := by
    have hnanos : (uses ++ []).filterMap Use.nanos? = [.ofInt 5000, .ofInt (-7)] := rfl
    refine ⟨fun x hx => ?_, ?_⟩ <;> rw [hnanos] at *
    · simp only [List.mem_cons, List.not_mem_nil, or_false] at hx
      rcases hx with rfl | rfl <;> exact Binary64.isWhole_ofInt _
    · simp [Binary64.toInt_ofInt]
  obtain ⟨text, htext, htext'⟩ :=
    exposition_of_reordered_run uses [] [] uses' hperm hdistinct hexact
  exact ⟨hperm, hdistinct, hexact, htext.trans htext'.symm⟩

end Hub

end FrontDoor
