import FrontDoor.Metrics.Requests
import FrontDoor.Proofs.Text.Decimal

/-!
# What recording does to the counts

A series is known by its label values written one after the other, so recording raises a count
exactly when the two lists of label values read the same (`errors_countError`,
`requests_observeLatency`). Failures with statuses of three digits are nevertheless told apart
(`failureKey_injective`).
-/

namespace FrontDoor

namespace SeriesTable

variable {α : Type}

theorem toList_key (labels : List String) :
    (key labels).toList = labels.flatMap String.toList := String.toList_join

/-- What a series has recorded depends on how its label values read, not on where they are cut. -/
theorem value_find_congr (t : SeriesTable α) (fresh : α) {labels labels' : List String}
    (h : key labels = key labels') :
    (t.find fresh labels).value = (t.find fresh labels').value := by
  unfold find
  rw [h]
  cases t.get? (key labels') <;> rfl

theorem value_find_update (t : SeriesTable α) (fresh : α) (labels labels' : List String)
    (record : α → α) :
    ((t.update fresh labels record).find fresh labels').value =
      if key labels' = key labels then record (t.find fresh labels').value
      else (t.find fresh labels').value := by
  unfold update
  by_cases h : key labels' = key labels
  · rw [if_pos h, value_find_congr t fresh h, find, Dictionary.get?_insert, if_pos h]
    rfl
  · rw [if_neg h, find, Dictionary.get?_insert, if_neg h]
    rfl

end SeriesTable

namespace RequestMetrics

/-- How often a failure was counted. -/
def errors (m : RequestMetrics) (endpoint method : String) (status : Nat) : Nat :=
  (m.errorCount endpoint method status).1

/-- How often a latency was recorded. -/
def requests (m : RequestMetrics) (endpoint method : String) : Nat :=
  (m.requestCount endpoint method).1

/-- How the label values of a failure read. -/
def failureKey (endpoint method : String) (status : Nat) : String :=
  SeriesTable.key (failureLabels endpoint method status)

/-- How the label values of a latency read. -/
def latencyKey (endpoint method : String) : String := SeriesTable.key [endpoint, method]

variable (m : RequestMetrics) (endpoint method endpoint' method' : String) (status status' : Nat)

theorem toList_latencyKey :
    (latencyKey endpoint method).toList = endpoint.toList ++ method.toList := by
  rw [latencyKey, SeriesTable.toList_key]
  simp

theorem latencyKey_eq : latencyKey endpoint method = endpoint ++ method := by
  apply String.toList_injective
  rw [String.toList_append, toList_latencyKey]

theorem failureKey_eq :
    failureKey endpoint method status = latencyKey endpoint method ++ Digits.decimal status := by
  apply String.toList_injective
  rw [String.toList_append, toList_latencyKey, failureKey, SeriesTable.toList_key, failureLabels]
  simp

/-- Under one endpoint every method has its own latencies. -/
theorem latencyKey_injective {endpoint method method' : String}
    (h : latencyKey endpoint method = latencyKey endpoint method') : method = method' := by
  have hlists := congrArg String.toList h
  rw [toList_latencyKey, toList_latencyKey, List.append_cancel_left_eq] at hlists
  exact String.toList_injective hlists

/-- Under one endpoint every method and every status of three digits have their own failures. -/
theorem failureKey_injective {endpoint method method' : String} {status status' : Nat}
    (h₁ : 100 ≤ status) (h₂ : status < 1000) (h₃ : 100 ≤ status') (h₄ : status' < 1000)
    (h : failureKey endpoint method status = failureKey endpoint method' status') :
    method = method' ∧ status = status' := by
  rw [failureKey_eq, failureKey_eq] at h
  obtain ⟨hmethod, hstatus⟩ := Digits.append_decimal_injective h₁ h₂ h₃ h₄ h
  exact ⟨latencyKey_injective hmethod, hstatus⟩

/-! ## One record -/

theorem errors_countError :
    (m.countError endpoint method status).errors endpoint' method' status' =
      m.errors endpoint' method' status' +
        if failureKey endpoint' method' status' = failureKey endpoint method status then 1
        else 0 := by
  have h := SeriesTable.value_find_update m.failures 0 (failureLabels endpoint method status)
    (failureLabels endpoint' method' status') (· + 1)
  refine h.trans ?_
  rw [← failureKey, ← failureKey]
  split <;> rfl

theorem requests_observeLatency (nanos : Binary64) :
    (m.observeLatency endpoint method nanos).requests endpoint' method' =
      m.requests endpoint' method' +
        if latencyKey endpoint' method' = latencyKey endpoint method then 1 else 0 := by
  have h := SeriesTable.value_find_update m.latencies noLatencies [endpoint, method]
    [endpoint', method'] (·.observe nanos)
  refine (congrArg Histogram.count h).trans ?_
  rw [← latencyKey, ← latencyKey]
  split <;> rfl

@[simp] theorem errors_observeLatency (nanos : Binary64) :
    (m.observeLatency endpoint method nanos).errors endpoint' method' status' =
      m.errors endpoint' method' status' := rfl

/-! ## Looking at a series -/

theorem requests_requestCount :
    (m.requestCount endpoint method).2.requests endpoint' method' =
      m.requests endpoint' method' := by
  have h := SeriesTable.value_find_update m.latencies noLatencies [endpoint, method]
    [endpoint', method'] id
  exact (congrArg Histogram.count h).trans (congrArg Histogram.count (ite_self _))

theorem errors_errorCount :
    (m.errorCount endpoint method status).2.errors endpoint' method' status' =
      m.errors endpoint' method' status' := by
  have h := SeriesTable.value_find_update m.failures 0 (failureLabels endpoint method status)
    (failureLabels endpoint' method' status') id
  exact h.trans (ite_self _)

/-! ## The failures of one request -/

/-- Counts some failures of a request, one after the other. -/
def countErrors (statuses : List Nat) : RequestMetrics :=
  statuses.foldl (fun m status => m.countError endpoint method status) m

@[simp] theorem countErrors_nil : m.countErrors endpoint method [] = m := rfl

@[simp] theorem countErrors_cons (statuses : List Nat) :
    m.countErrors endpoint method (status :: statuses) =
      (m.countError endpoint method status).countErrors endpoint method statuses := rfl

theorem requests_countErrors (statuses : List Nat) :
    (m.countErrors endpoint method statuses).requests endpoint' method' =
      m.requests endpoint' method' := by
  induction statuses generalizing m with
  | nil => rfl
  | cons status rest ih => exact ih (m.countError endpoint method status)

/-- Every failure is counted where its label values read like those that are looked up. -/
theorem errors_countErrors (statuses : List Nat) :
    (m.countErrors endpoint method statuses).errors endpoint' method' status' =
      m.errors endpoint' method' status' + statuses.countP fun status =>
        failureKey endpoint' method' status' = failureKey endpoint method status := by
  induction statuses generalizing m with
  | nil => rfl
  | cons status rest ih =>
    refine (ih (m.countError endpoint method status)).trans ?_
    rw [errors_countError, List.countP_cons]
    simp only [decide_eq_true_eq]
    omega

end RequestMetrics

end FrontDoor
