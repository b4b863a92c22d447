import FrontDoor.Proofs.Recorders.Desk
import Mathlib.Algebra.BigOperators.Group.Finset.Basic
import Mathlib.Algebra.BigOperators.Group.Finset.Piecewise

/-!
# Recorders add up

The counts of shared metrics rise by what every recorder would have recorded alone, in whatever
order the recorders were started, told of failures and ended (`failures_after`, `requests_after`),
and series that no recorder names are left alone.
-/

namespace FrontDoor.Desk

open Recorder (IsStatus)

variable {events : List Event} {m : RequestMetrics} {i : Nat}

/-! ## Sums over recorders -/

/-- What the recorders for a method have recorded together, when each has recorded `own`. -/
def total (events : List Event) (method : String) (own : Nat → Nat) : Nat :=
  ∑ i ∈ Finset.range (methods events).length, if serves events i method then own i else 0

theorem total_congr {events' : List Event} (h : methods events' = methods events) (method : String)
    {own own' : Nat → Nat} (hown : ∀ i, own' i = own i) :
    total events' method own' = total events method own := by
  unfold total serves
  simp only [h, hown]

/-- A recorder that has just been started has recorded nothing. -/
theorem total_start (method' : Method) (method : String) {own : Nat → Nat}
    (hown : own (methods events).length = 0) :
    total (events ++ [.start method']) method own = total events method own := by
  unfold total serves
  rw [methods_start, List.length_append, List.length_singleton, Finset.sum_range_succ, hown,
    ite_self, Nat.add_zero]
  refine Finset.sum_congr rfl fun i hi => ?_
  rw [List.getElem?_append_left (Finset.mem_range.mp hi)]

/-- What one recorder records more is counted for its method. -/
theorem total_add {method' : Method} (hi : (methods events)[i]? = some method') (method : String)
    (own : Nat → Nat) (n : Nat) :
    total events method (fun j => own j + if i = j then n else 0) =
      total events method own + if method'.name = method then n else 0 := by
  have hlt : i < (methods events).length := (List.getElem?_eq_some_iff.mp hi).1
  have hserves : serves events i method = decide (method'.name = method) := by
    rw [serves, hi, Option.any_some]
  have hsplit : ∀ j, (if serves events j method then own j + if i = j then n else 0 else 0) =
      (if serves events j method then own j else 0) +
        if i = j then (if serves events i method then n else 0) else 0 := by
    intro j
    by_cases hij : i = j
    · subst hij
      cases serves events i method <;> simp
    · rw [if_neg hij, if_neg hij, Nat.add_zero, Nat.add_zero]
  unfold total
  simp only [hsplit, Finset.sum_add_distrib]
  rw [Finset.sum_ite_eq, if_pos (Finset.mem_range.mpr hlt), hserves]
  simp only [decide_eq_true_eq]

/-! ## Counts -/

theorem failures_after (h : Legal (empty m) events) (method : String) {status : Nat}
    (hstatus : IsStatus status) :
    ((empty m).after events).metrics.errors "/key" method status =
      m.errors "/key" method status +
        total events method fun i => (failuresOf events i).count status := by
  induction events, h using run_induction with
  | nil => rfl
  | start events method' _ _ hfollows ih =>
    obtain ⟨hnone, -⟩ := hfollows.absent _ hfollows.length.le
    rw [failuresOf_start, total_start method' method (by rw [hnone]; rfl), after_concat]
    exact ih
  | fail events i status' r _ _ hr hmethod hstatus' ih =>
    have hcount : ∀ j, (failuresOf (events ++ [.fail i status']) j).count status =
        (failuresOf events j).count status +
          if i = j then (if status' = status then 1 else 0) else 0 := by
      intro j
      rw [failuresOf_fail, List.count_append]
      split
      · rw [List.count_singleton]
        simp only [beq_iff_eq]
      · rfl
    have hkey : RequestMetrics.failureKey "/key" method status =
        RequestMetrics.failureKey keyEndpoint r.method.name status' ↔
          r.method.name = method ∧ status' = status := by
      constructor
      · intro hsame
        obtain ⟨hm, hs⟩ := RequestMetrics.failureKey_injective hstatus.1 hstatus.2 hstatus'.1
          hstatus'.2 hsame
        exact ⟨hm.symm, hs.symm⟩
      · rintro ⟨rfl, rfl⟩
        rfl
    rw [total_congr methods_fail method hcount, total_add hmethod, ← Nat.add_assoc, ← ih,
      after_concat, perform_fail hr]
    refine (RequestMetrics.errors_countError _ _ _ _ method _ status).trans ?_
    congr 1
    rw [if_congr hkey rfl rfl, ite_and]
  | finish events i parting elapsed r _ _ hr _ ih =>
    rw [failuresOf_finish, total_congr methods_finish method fun _ => rfl, after_concat,
      perform_finish hr, ← ih]
    rfl

theorem requests_after (h : Legal (empty m) events) (method : String) :
    ((empty m).after events).metrics.requests "/key" method =
      m.requests "/key" method + total events method (endings events) := by
  induction events, h using run_induction with
  | nil => rfl
  | start events method' _ _ hfollows ih =>
    obtain ⟨-, hzero⟩ := hfollows.absent _ hfollows.length.le
    rw [endings_start, total_start method' method hzero, after_concat]
    exact ih
  | fail events i status r _ _ hr _ _ ih =>
    rw [endings_fail, total_congr methods_fail method fun _ => rfl, after_concat, perform_fail hr,
      ← ih]
    rfl
  | finish events i parting elapsed r _ _ hr hmethod ih =>
    have hkey : RequestMetrics.latencyKey "/key" method =
        RequestMetrics.latencyKey keyEndpoint r.method.name ↔ r.method.name = method := by
      refine ⟨fun hsame => (RequestMetrics.latencyKey_injective hsame).symm, ?_⟩
      rintro rfl
      rfl
    rw [total_congr methods_finish method fun _ => endings_finish, total_add hmethod,
      ← Nat.add_assoc, ← ih, after_concat, perform_finish hr]
    refine (RequestMetrics.requests_observeLatency _ _ _ _ method _).trans ?_
    congr 1
    exact if_congr hkey rfl rfl

/-! ## Series that no recorder names -/

/-- The methods of the recorders so far stay where they are. -/
theorem methods_start_of_some {method method' : Method} (hi : (methods events)[i]? = some method) :
    (methods (events ++ [.start method']))[i]? = some method := by
  rw [methods_start, List.getElem?_append_left (List.getElem?_eq_some_iff.mp hi).1, hi]

theorem other_failures_after (h : Legal (empty m) events) {k : String}
    (hk : ∀ (i : Nat) (method : Method), (methods events)[i]? = some method →
      ∀ status ∈ failuresOf events i, k ≠ RequestMetrics.failureKey "/key" method.name status) :
    ((empty m).after events).metrics.failures.get? k = m.failures.get? k := by
  induction events, h using run_induction with
  | nil => rfl
  | start events method' _ _ _ ih =>
    rw [failuresOf_start] at hk
    rw [after_concat]
    exact ih fun i method hi => hk i method (methods_start_of_some hi)
  | fail events i status r _ _ hr hmethod _ ih =>
    simp only [methods_fail, failuresOf_fail] at hk
    rw [after_concat, perform_fail hr]
    refine (RequestMetrics.get?_countError_of_ne _ _ _ (hk i r.method hmethod status ?_)).trans ?_
    · rw [if_pos rfl]
      exact List.mem_append_right _ List.mem_cons_self
    · exact ih fun j method hj s hs => hk j method hj s (List.mem_append_left _ hs)
  | finish events i parting elapsed r _ _ hr _ ih =>
    rw [methods_finish, failuresOf_finish] at hk
    rw [after_concat, perform_finish hr]
    exact ih hk

theorem other_latencies_after (h : Legal (empty m) events) {k : String}
    (hk : ∀ (i : Nat) (method : Method), (methods events)[i]? = some method → 0 < endings events i →
      k ≠ RequestMetrics.latencyKey "/key" method.name) :
    ((empty m).after events).metrics.latencies.get? k = m.latencies.get? k := by
  induction events, h using run_induction with
  | nil => rfl
  | start events method' _ _ _ ih =>
    rw [endings_start] at hk
    rw [after_concat]
    exact ih fun i method hi => hk i method (methods_start_of_some hi)
  | fail events i status r _ _ hr _ _ ih =>
    rw [methods_fail, endings_fail] at hk
    rw [after_concat, perform_fail hr]
    exact ih hk
  | finish events i parting elapsed r _ _ hr hmethod ih =>
    simp only [methods_finish, endings_finish] at hk
    rw [after_concat, perform_finish hr]
    refine (RequestMetrics.get?_observeLatency_of_ne _ _ _ (hk i r.method hmethod ?_)).trans ?_
    · rw [if_pos rfl]
      exact Nat.succ_pos _
    · exact ih fun j method hj hpos => hk j method hj (Nat.add_pos_left hpos _)

/-! ## The account of a run -/

/-- What a run has left of its recorders and in their metrics, which were `before` when it began. -/
structure AddsUp (before : RequestMetrics) (events : List Event) (d : Desk) : Prop where
  status : ∀ i r, d.open? i = some r → r.status = (failuresOf events i).head?.getD 200
  empty_response : ∀ i elapsed, (d.open? i).isSome →
    (d.perform (.finish i .respond elapsed)).1 =
      some (.empty ((failuresOf events i).head?.getD 200))
  response : ∀ i elapsed response, (d.open? i).isSome →
    (d.perform (.finish i (.respondWith response) elapsed)).1 =
      some { response with status := (failuresOf events i).head?.getD 200 }
  ends_once : ∀ i, i < (methods events).length →
    endings events i = if (d.open? i).isSome then 0 else 1
  requests : ∀ method, d.metrics.requests "/key" method =
    before.requests "/key" method +
      ∑ i ∈ Finset.range (methods events).length,
        if serves events i method then endings events i else 0
  failures : ∀ method status, IsStatus status → d.metrics.errors "/key" method status =
    before.errors "/key" method status +
      ∑ i ∈ Finset.range (methods events).length,
        if serves events i method then (failuresOf events i).count status else 0
  other_latencies : ∀ k, (∀ (i : Nat) (method : Method), (methods events)[i]? = some method →
      0 < endings events i → k ≠ RequestMetrics.latencyKey "/key" method.name) →
    d.metrics.latencies.get? k = before.latencies.get? k
  other_failures : ∀ k, (∀ (i : Nat) (method : Method), (methods events)[i]? = some method →
      ∀ status ∈ failuresOf events i, k ≠ RequestMetrics.failureKey "/key" method.name status) →
    d.metrics.failures.get? k = before.failures.get? k

theorem addsUp (h : Legal (empty m) events) : AddsUp m events ((empty m).after events) := by
  have hfollows := follows_after h
  have hstatus : ∀ i r, ((empty m).after events).open? i = some r →
      r.status = (failuresOf events i).head?.getD 200 := by
    intro i r hr
    rw [Recorder.status, (hfollows.opened i r hr).2.1]
    rfl
  constructor
  case status => exact hstatus
  case empty_response =>
    intro i elapsed hopen
    obtain ⟨r, hr⟩ := Option.isSome_iff_exists.mp hopen
    rw [perform_finish hr, ← hstatus i r hr]
    rfl
  case response =>
    intro i elapsed response hopen
    obtain ⟨r, hr⟩ := Option.isSome_iff_exists.mp hopen
    rw [perform_finish hr, ← hstatus i r hr]
    rfl
  case ends_once =>
    intro i hlt
    cases hr : ((empty m).after events).open? i with
    | some r => exact (hfollows.opened i r hr).2.2
    | none => exact hfollows.ended i (hfollows.length ▸ hlt) hr
  case requests => exact requests_after h
  case failures => exact fun method status => failures_after h method
  case other_latencies => exact fun k => other_latencies_after h
  case other_failures => exact fun k => other_failures_after h

/-- **A recorder counts every failure and one latency, the first failure wins, and recorders add
up.** Whatever statuses a recorder is told of, it counts each as often as it comes, shows the first,
and records a latency when it ends, in whichever way. Of any number of recorders over the same
metrics, started and ended in any order, each shows its own first failure, and the counts have risen
by what each of them records on its own. -/
theorem recorders_add_up :
    (∀ (method : Method) (m : RequestMetrics) (statuses : List Nat),
        (∀ status ∈ statuses, IsStatus status) →
          Recorder.Records method statuses m ((Recorder.start method).failAll m statuses)) ∧
      ∀ (m : RequestMetrics) (events : List Event), Legal (empty m) events →
        AddsUp m events ((empty m).after events) :=
  ⟨fun method m _ h => Recorder.records method m h, fun _ _ h => addsUp h⟩

/-- Two recorders that overlap, and a third for a method of its own that is dropped. -/
theorem recorders_add_up_overlapping :
    let get : Method := ⟨"GET", by decide⟩
    let purge : Method := ⟨"PURGE", by decide⟩
    let events : List Event := [.start get, .start get, .fail 1 500, .fail 0 400, .start purge,
      .finish 1 (.respondWith ⟨204, [], []⟩) 7, .fail 2 405, .fail 0 500, .fail 0 400,
      .finish 2 .drop 3]
    let d := (empty .new).after events
    (∀ status ∈ [400, 500, 400], IsStatus status) ∧
      ((Recorder.start get).failAll .new [400, 500, 400]).1.status = 400 ∧
      Legal (empty .new) events ∧
      d.metrics.errors "/key" "GET" 500 = 2 ∧ d.metrics.errors "/key" "PURGE" 405 = 1 ∧
      d.metrics.requests "/key" "GET" = 1 ∧
      (d.perform (.finish 0 .respond 9)).1 = some (.empty 400) := by
  intro get purge events d
  have hstatuses : ∀ status ∈ [400, 500, 400], IsStatus status := by decide
  have hlegal : Legal (empty .new) events := by decide +kernel
  have hrecords := recorders_add_up.1 get .new [400, 500, 400] hstatuses
  have hadds := recorders_add_up.2 .new events hlegal
  exact ⟨hstatuses, hrecords.status, hlegal,
    (hadds.failures "GET" 500 (by decide)).trans (by decide +kernel),
    (hadds.failures "PURGE" 405 (by decide)).trans (by decide +kernel),
    (hadds.requests "GET").trans (by decide +kernel),
    hadds.empty_response 0 9 (by decide +kernel)⟩

end FrontDoor.Desk
