import FrontDoor.Proofs.Metrics.Histogram
import FrontDoor.Proofs.Metrics.Registration
import FrontDoor.Proofs.Metrics.Series

/-!
# A set alone in its registry

What is done with one set of metrics between its registration and a scrape: latencies and failures
are recorded, and counts are read, which makes a series too. If no two lists of label values read
the same within a family, the series hold what was recorded under their label values
(`exists_latencies_sorted`, `exists_failures_sorted`), and a scrape shows the two families of the
set and nothing else (`encode_solo`).
-/

namespace FrontDoor

/-- A use of a set of metrics: recording something, or reading a count. -/
inductive Use where
  | observe (endpoint method : String) (nanos : Binary64)
  | countError (endpoint method : String) (status : Nat)
  | requestCount (endpoint method : String)
  | errorCount (endpoint method : String) (status : Nat)
  deriving DecidableEq

namespace Use

/-- The endpoint and the method whose latencies a use is about. -/
def request? : Use → Option (String × String)
  | .observe endpoint method _ | .requestCount endpoint method => some (endpoint, method)
  | _ => none

/-- The endpoint, the method and the status whose failures a use is about. -/
def failure? : Use → Option (String × String × Nat)
  | .countError endpoint method status | .errorCount endpoint method status =>
    some (endpoint, method, status)
  | _ => none

/-- The latency that a use records under an endpoint and a method. -/
def observed? (endpoint method : String) : Use → Option Binary64
  | .observe endpoint' method' nanos =>
    if endpoint' = endpoint ∧ method' = method then some nanos else none
  | _ => none

/-- Whether a use counts a failure under an endpoint, a method and a status. -/
def fails (endpoint method : String) (status : Nat) : Use → Bool
  | .countError endpoint' method' status' =>
    endpoint' == endpoint && method' == method && status' == status
  | _ => false

def step (set : Nat) : Use → Hub.Step
  | .observe endpoint method nanos => .observe set endpoint method nanos
  | .countError endpoint method status => .countError set endpoint method status
  | .requestCount endpoint method => .requestCount set endpoint method
  | .errorCount endpoint method status => .errorCount set endpoint method status

/-- Within each family, label values that differ read differently when they are written one after
the other. -/
structure Distinct (uses : List Use) : Prop where
  requests : ∀ p ∈ uses.filterMap request?, ∀ q ∈ uses.filterMap request?,
    p.1 ++ p.2 = q.1 ++ q.2 → p = q
  failures : ∀ p ∈ uses.filterMap failure?, ∀ q ∈ uses.filterMap failure?,
    p.1 ++ p.2.1 ++ Digits.decimal p.2.2 = q.1 ++ q.2.1 ++ Digits.decimal q.2.2 → p = q

end Use

namespace RequestMetrics

variable (uses : List Use) (endpoint method : String) (status : Nat)

def use (m : RequestMetrics) : Use → RequestMetrics
  | .observe endpoint method nanos => m.observeLatency endpoint method nanos
  | .countError endpoint method status => m.countError endpoint method status
  | .requestCount endpoint method => (m.requestCount endpoint method).2
  | .errorCount endpoint method status => (m.errorCount endpoint method status).2

/-- A new set after some uses. -/
def used : RequestMetrics := uses.foldl use .new

/-- The latencies recorded under an endpoint and a method, in the order of their recording. -/
def latenciesOf : List Binary64 := uses.filterMap (Use.observed? endpoint method)

/-- How often a failure was counted under an endpoint, a method and a status. -/
def failuresOf : Nat := uses.countP (Use.fails endpoint method status)

/-! ## What is recorded -/

def requestLabels (p : String × String) : List String := [p.1, p.2]

def failureTuple (p : String × String × Nat) : List String := failureLabels p.1 p.2.1 p.2.2

def latencyRecord? : Use → Option (Record Histogram)
  | .observe endpoint method nanos => some ⟨[endpoint, method], (·.observe nanos)⟩
  | .requestCount endpoint method => some ⟨[endpoint, method], id⟩
  | _ => none

def failureRecord? : Use → Option (Record Nat)
  | .countError endpoint method status => some ⟨failureLabels endpoint method status, (· + 1)⟩
  | .errorCount endpoint method status => some ⟨failureLabels endpoint method status, id⟩
  | _ => none

theorem latencies_foldl (m : RequestMetrics) : (uses.foldl use m).latencies =
    SeriesTable.recordAll m.latencies noLatencies (uses.filterMap latencyRecord?) := by
  induction uses generalizing m with
  | nil => rfl
  | cons u uses ih => cases u <;> exact ih _

theorem failures_foldl (m : RequestMetrics) : (uses.foldl use m).failures =
    SeriesTable.recordAll m.failures 0 (uses.filterMap failureRecord?) := by
  induction uses generalizing m with
  | nil => rfl
  | cons u uses ih => cases u <;> exact ih _

theorem total_latencyRecords (h : Histogram) :
    SeriesTable.total h (uses.filterMap latencyRecord?) [endpoint, method] =
      (latenciesOf uses endpoint method).foldl Histogram.observe h := by
  induction uses generalizing h with
  | nil => rfl
  | cons u uses ih =>
    cases u with
    | observe endpoint' method' nanos =>
      by_cases hlabels : endpoint' = endpoint ∧ method' = method
      · obtain ⟨rfl, rfl⟩ := hlabels
        simpa [SeriesTable.total, latencyRecord?, latenciesOf, Use.observed?] using
          ih (h.observe nanos)
      · have hother : [endpoint', method'] ≠ [endpoint, method] := by simpa using hlabels
        simpa [SeriesTable.total, latencyRecord?, latenciesOf, Use.observed?, hlabels, hother] using
          ih h
    | requestCount endpoint' method' =>
      simpa [SeriesTable.total, latencyRecord?, latenciesOf, List.filterMap_cons, Use.observed?]
        using ih h
    | countError | errorCount => exact ih h

theorem failureTuple_injective : Function.Injective failureTuple := by
  rintro ⟨endpoint, method, status⟩ ⟨endpoint', method', status'⟩ h
  simp only [failureTuple, failureLabels, List.cons.injEq] at h
  obtain ⟨rfl, rfl, hstatus, -⟩ := h
  rw [Digits.decimal_injective hstatus]

theorem requestLabels_injective : Function.Injective requestLabels := by
  rintro ⟨endpoint, method⟩ ⟨endpoint', method'⟩ h
  simp only [requestLabels, List.cons.injEq] at h
  obtain ⟨rfl, rfl, -⟩ := h
  rfl

theorem total_failureRecords (n : Nat) :
    SeriesTable.total n (uses.filterMap failureRecord?) (failureLabels endpoint method status) =
      n + failuresOf uses endpoint method status := by
  induction uses generalizing n with
  | nil => rfl
  | cons u uses ih =>
    cases u with
    | countError endpoint' method' status' =>
      have hiff : failureLabels endpoint' method' status' = failureLabels endpoint method status ↔
          Use.fails endpoint method status (.countError endpoint' method' status') := by
        have h := failureTuple_injective.eq_iff (a := (endpoint', method', status'))
          (b := (endpoint, method, status))
        simpa [failureTuple, Use.fails, and_assoc] using h
      rw [failuresOf, List.countP_cons, ← failuresOf]
      by_cases hfails : Use.fails endpoint method status (.countError endpoint' method' status')
      · have hnext := ih (n + 1)
        simp only [SeriesTable.total, failureRecord?, List.filterMap_cons, List.foldl_cons,
          hiff.mpr hfails, if_true] at hnext ⊢
        rw [hnext, if_pos hfails]
        omega
      · have hnext := ih n
        simp only [SeriesTable.total, failureRecord?, List.filterMap_cons, List.foldl_cons,
          mt hiff.mp hfails, if_false] at hnext ⊢
        rw [hnext, if_neg hfails, Nat.add_zero]
    | errorCount endpoint' method' status' =>
      have hnext := ih n
      simpa [SeriesTable.total, failureRecord?, failuresOf, Use.fails] using hnext
    | observe | requestCount => exact ih n

/-! ## The series of a used set -/

theorem labels_latencyRecords : (uses.filterMap latencyRecord?).map Record.labels =
    (uses.filterMap Use.request?).map requestLabels := by
  rw [List.map_filterMap, List.map_filterMap]
  refine List.filterMap_congr fun u _ => ?_
  cases u <;> rfl

theorem labels_failureRecords : (uses.filterMap failureRecord?).map Record.labels =
    (uses.filterMap Use.failure?).map failureTuple := by
  rw [List.map_filterMap, List.map_filterMap]
  refine List.filterMap_congr fun u _ => ?_
  cases u <;> rfl

variable {uses}

theorem untangled_of_keys {α κ : Type} {records : List (Record α)} {labelsOf : κ → List String}
    {keys : List κ} (hkeys : records.map Record.labels = keys.map labelsOf)
    (h : ∀ p ∈ keys, ∀ q ∈ keys,
      SeriesTable.key (labelsOf p) = SeriesTable.key (labelsOf q) → p = q) :
    SeriesTable.Untangled records := by
  have hkey : ∀ r ∈ records, ∃ p ∈ keys, labelsOf p = r.labels := fun r hr =>
    List.mem_map.mp (hkeys ▸ List.mem_map_of_mem hr)
  intro r hr r' hr' hreads
  obtain ⟨p, hp, hlabels⟩ := hkey r hr
  obtain ⟨q, hq, hlabels'⟩ := hkey r' hr'
  rw [← hlabels, ← hlabels'] at hreads ⊢
  rw [h p hp q hq hreads]

theorem untangled_latencyRecords (h : Use.Distinct uses) :
    SeriesTable.Untangled (uses.filterMap latencyRecord?) := by
  refine untangled_of_keys (labels_latencyRecords uses) fun p hp q hq hreads => ?_
  apply h.requests p hp q hq
  rwa [← latencyKey_eq, ← latencyKey_eq]

theorem untangled_failureRecords (h : Use.Distinct uses) :
    SeriesTable.Untangled (uses.filterMap failureRecord?) := by
  refine untangled_of_keys (labels_failureRecords uses) fun p hp q hq hreads => ?_
  apply h.failures p hp q hq
  rwa [← latencyKey_eq p.1, ← latencyKey_eq q.1, ← failureKey_eq, ← failureKey_eq]

/-- The latencies of a used set: a series for each endpoint and method that a use was about. -/
theorem exists_latencies_sorted (h : Use.Distinct uses) :
    ∃ listed : List (String × String), (listed.map requestLabels).Pairwise (· < ·) ∧
      (∀ p, p ∈ listed ↔ p ∈ uses.filterMap Use.request?) ∧
      (used uses).latencies.sorted = listed.map fun p =>
        ⟨requestLabels p, (latenciesOf uses p.1 p.2).foldl Histogram.observe noLatencies⟩ := by
  obtain ⟨listed, hordered, hmem, hsorted⟩ := SeriesTable.exists_sorted_recordAll
    requestLabels_injective (labels_latencyRecords uses) noLatencies (untangled_latencyRecords h)
  refine ⟨listed, hordered, hmem, ?_⟩
  rw [used, latencies_foldl]
  refine hsorted.trans (List.map_congr_left fun p _ => ?_)
  exact congrArg _ (total_latencyRecords uses p.1 p.2 noLatencies)

/-- The failures of a used set: a series for each tuple that a use was about. -/
theorem exists_failures_sorted (h : Use.Distinct uses) :
    ∃ listed : List (String × String × Nat), (listed.map failureTuple).Pairwise (· < ·) ∧
      (∀ p, p ∈ listed ↔ p ∈ uses.filterMap Use.failure?) ∧
      (used uses).failures.sorted = listed.map fun p =>
        ⟨failureTuple p, failuresOf uses p.1 p.2.1 p.2.2⟩ := by
  obtain ⟨listed, hordered, hmem, hsorted⟩ := SeriesTable.exists_sorted_recordAll
    failureTuple_injective (labels_failureRecords uses) 0 (untangled_failureRecords h)
  refine ⟨listed, hordered, hmem, ?_⟩
  rw [used, failures_foldl]
  refine hsorted.trans (List.map_congr_left fun p _ => ?_)
  exact congrArg _ ((total_failureRecords uses p.1 p.2.1 p.2.2 0).trans (Nat.zero_add _))

/-! ## Counts -/

theorem requests_used (h : Use.Distinct uses) {p : String × String}
    (hp : p ∈ uses.filterMap Use.request?) :
    (used uses).requests p.1 p.2 = (latenciesOf uses p.1 p.2).length := by
  have hlabels : requestLabels p ∈ (uses.filterMap latencyRecord?).map Record.labels :=
    labels_latencyRecords uses ▸ List.mem_map_of_mem hp
  have hfind := SeriesTable.find_recordAll noLatencies (untangled_latencyRecords h) hlabels
  have hlatencies : (used uses).latencies =
      SeriesTable.recordAll .empty noLatencies (uses.filterMap latencyRecord?) :=
    latencies_foldl uses .new
  calc (used uses).requests p.1 p.2
      = ((used uses).latencies.find noLatencies (requestLabels p)).value.count := rfl
    _ = ((latenciesOf uses p.1 p.2).foldl Histogram.observe noLatencies).count := by
        rw [hlatencies, hfind, requestLabels, total_latencyRecords]
    _ = (latenciesOf uses p.1 p.2).length :=
        (Histogram.count_foldl_observe noLatencies _).trans (Nat.zero_add _)

theorem errors_used (h : Use.Distinct uses) {p : String × String × Nat}
    (hp : p ∈ uses.filterMap Use.failure?) :
    (used uses).errors p.1 p.2.1 p.2.2 = failuresOf uses p.1 p.2.1 p.2.2 := by
  have hlabels : failureTuple p ∈ (uses.filterMap failureRecord?).map Record.labels :=
    labels_failureRecords uses ▸ List.mem_map_of_mem hp
  have hfind := SeriesTable.find_recordAll 0 (untangled_failureRecords h) hlabels
  have hfailures : (used uses).failures =
      SeriesTable.recordAll .empty 0 (uses.filterMap failureRecord?) := failures_foldl uses .new
  calc (used uses).errors p.1 p.2.1 p.2.2
      = ((used uses).failures.find 0 (failureTuple p)).value := rfl
    _ = 0 + failuresOf uses p.1 p.2.1 p.2.2 := by
        rw [hfailures, hfind, failureTuple, total_failureRecords]
    _ = failuresOf uses p.1 p.2.1 p.2.2 := Nat.zero_add _

end RequestMetrics

namespace Hub

open RequestMetrics

/-- A hub with one set and one registry. -/
def solo (m : RequestMetrics) (r : Registry) : Hub := ⟨[m], [0], [r]⟩

/-- The registry in which nothing but the first set is registered. -/
def soloRegistry : Registry := (Registry.register .new 0).2

theorem after_uses (m : RequestMetrics) (r : Registry) (uses : List Use) :
    (solo m r).after (uses.map (·.step 0)) = solo (uses.foldl use m) r := by
  induction uses generalizing m with
  | nil => rfl
  | cons u uses ih => cases u <;> exact ih _

/-- A run in which a set is registered alone: what is done with it before and after. -/
def soloRun (before after : List Use) : List Step :=
  before.map (·.step 0) ++ .register 0 0 :: after.map (·.step 0)

theorem after_soloRun (before after : List Use) :
    start.after (soloRun before after) = solo (used (before ++ after)) soloRegistry := by
  have hbefore : start.after (before.map (·.step 0)) = solo (used before) .new :=
    after_uses .new .new before
  have hregister : ((solo (used before) .new).perform (.register 0 0)).2 =
      solo (used before) soloRegistry := rfl
  calc start.after (soloRun before after)
      = ((start.after (before.map (·.step 0))).perform (.register 0 0)).2.after
          (after.map (·.step 0)) := by rw [Hub.after, soloRun, List.foldl_append]; rfl
    _ = solo (after.foldl use (used before)) soloRegistry := by
          rw [hbefore, hregister, after_uses]
    _ = solo (used (before ++ after)) soloRegistry := by rw [used, used, List.foldl_append]

theorem values_soloRegistry : soloRegistry.values = [.failures 0, .latencies 0] := by decide

/-- A scrape shows the failures of the set before its latencies. -/
theorem encode_solo (m : RequestMetrics) : ((solo m soloRegistry).perform (.encode 0)).1 =
    .exposition (.ok (Exposition.text
      [Exposition.failureFamily m, Exposition.latencyFamily m])) := by
  have hencode : soloRegistry.encode (solo m soloRegistry).metrics =
      .ok (Exposition.text [Exposition.failureFamily m, Exposition.latencyFamily m]) := by
    rw [Registry.encode, values_soloRegistry]
    rfl
  exact congrArg Answer.exposition hencode

end Hub

end FrontDoor
