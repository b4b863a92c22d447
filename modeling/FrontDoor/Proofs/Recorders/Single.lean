import FrontDoor.Proofs.Recorder
import Mathlib.Logic.Basic

/-!
# One recorder

`records`: what a recorder has recorded after it was told of some failures, what ending it adds, and
that all other series are left alone.
-/

namespace FrontDoor

/-! ## Series that are left alone -/

namespace RequestMetrics

variable (m : RequestMetrics) (endpoint method : String)

theorem get?_countError_of_ne {status : Nat} {k : String}
    (h : k ≠ failureKey endpoint method status) :
    (m.countError endpoint method status).failures.get? k = m.failures.get? k :=
  (Dictionary.get?_insert _ _ _ _).trans (if_neg h)

theorem get?_observeLatency_of_ne {nanos : Binary64} {k : String}
    (h : k ≠ latencyKey endpoint method) :
    (m.observeLatency endpoint method nanos).latencies.get? k = m.latencies.get? k :=
  (Dictionary.get?_insert _ _ _ _).trans (if_neg h)

theorem get?_countErrors_of_ne {statuses : List Nat} {k : String}
    (h : ∀ status ∈ statuses, k ≠ failureKey endpoint method status) :
    (m.countErrors endpoint method statuses).failures.get? k = m.failures.get? k := by
  induction statuses generalizing m with
  | nil => rfl
  | cons status rest ih =>
    rw [countErrors_cons, ih _ fun s hs => h s (List.mem_cons_of_mem _ hs)]
    exact m.get?_countError_of_ne endpoint method (h status List.mem_cons_self)

theorem latencies_countErrors (statuses : List Nat) :
    (m.countErrors endpoint method statuses).latencies = m.latencies := by
  induction statuses generalizing m with
  | nil => rfl
  | cons status rest ih => exact ih (m.countError endpoint method status)

end RequestMetrics

namespace Recorder

/-- How a recorder ends: with a response of its own, with one that is given its status, or without
any. -/
inductive Parting where
  | respond
  | respondWith (response : Response)
  | drop

/-- The response that a recorder ends with, if there is one. -/
def part (r : Recorder) : Parting → Option Response
  | .respond => some r.respond
  | .respondWith response => some (r.respondWith response)
  | .drop => none

/-- Statuses have three digits. -/
def IsStatus (status : Nat) : Prop := 100 ≤ status ∧ status < 1000

instance (status : Nat) : Decidable (IsStatus status) := inferInstanceAs (Decidable (_ ∧ _))

/-! ## One recorder -/

/-- A recorder of a method and the metrics after it was told of some failures, over metrics as they
were before: what both show until the recorder ends, and what ending it adds. -/
structure Records (method : Method) (statuses : List Nat) (before : RequestMetrics)
    (told : Recorder × RequestMetrics) : Prop where
  status : told.1.status = statuses.head?.getD 200
  no_latency : told.2.latencies = before.latencies
  failures : ∀ method' status, IsStatus status → told.2.errors "/key" method' status =
    before.errors "/key" method' status + if method' = method.name then statuses.count status else 0
  other_failures : ∀ k,
    (∀ status ∈ statuses, k ≠ RequestMetrics.failureKey "/key" method.name status) →
      told.2.failures.get? k = before.failures.get? k
  empty_response : told.1.part .respond = some (.empty (statuses.head?.getD 200))
  response : ∀ response, told.1.part (.respondWith response) =
    some { response with status := statuses.head?.getD 200 }
  one_latency : ∀ elapsed method', (told.1.finish told.2 elapsed).requests "/key" method' =
    before.requests "/key" method' + if method' = method.name then 1 else 0
  other_latencies : ∀ elapsed k, k ≠ RequestMetrics.latencyKey "/key" method.name →
    (told.1.finish told.2 elapsed).latencies.get? k = before.latencies.get? k
  no_late_failure : ∀ elapsed, (told.1.finish told.2 elapsed).failures = told.2.failures

theorem records (method : Method) (m : RequestMetrics) {statuses : List Nat}
    (h : ∀ status ∈ statuses, IsStatus status) :
    Records method statuses m ((start method).failAll m statuses) := by
  rw [failAll_start]
  constructor
  case status => rfl
  case no_latency => exact m.latencies_countErrors _ _ statuses
  case failures =>
    intro method' status hstatus
    have hinjective : ∀ s ∈ statuses, RequestMetrics.failureKey "/key" method' status =
        RequestMetrics.failureKey "/key" method.name s → method' = method.name ∧ status = s :=
      fun s hs => RequestMetrics.failureKey_injective hstatus.1 hstatus.2 (h s hs).1 (h s hs).2
    refine (m.errors_countErrors _ _ _ _ status statuses).trans ?_
    congr 1
    split
    · next heq =>
      subst heq
      rw [List.count_eq_countP]
      refine List.countP_congr fun s hs => ?_
      rw [decide_eq_true_eq, beq_iff_eq]
      constructor
      · exact fun hkey => (hinjective s hs hkey).2.symm
      · rintro rfl
        rfl
    · next hne =>
      refine List.countP_eq_zero.mpr fun s hs hkey => hne ?_
      rw [decide_eq_true_eq] at hkey
      exact (hinjective s hs hkey).1
  case other_failures =>
    intro k hk
    exact m.get?_countErrors_of_ne _ _ hk
  case empty_response => rfl
  case response => exact fun _ => rfl
  case one_latency =>
    intro elapsed method'
    refine (RequestMetrics.requests_observeLatency _ _ _ _ method' _).trans ?_
    rw [RequestMetrics.requests_countErrors]
    congr 1
    refine if_congr ⟨RequestMetrics.latencyKey_injective, fun heq => ?_⟩ rfl rfl
    rw [heq]
    rfl
  case other_latencies =>
    intro elapsed k hk
    refine (RequestMetrics.get?_observeLatency_of_ne _ _ _ hk).trans ?_
    rw [RequestMetrics.latencies_countErrors]
  case no_late_failure => exact fun _ => rfl

end Recorder

end FrontDoor
