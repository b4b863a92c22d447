import FrontDoor.Proofs.Door.Run

/-!
# What the metrics say after a run

`faults` lists what goes wrong with a request about keys, read off what the store answers, and
`faultLog` what went wrong in a run. The counters of a door say no more and no less: every request
about keys has one latency (`requests_after`) and every fault is counted once, under its own method
and status (`errors_after`), although a series is known only by how its label values read.
-/

namespace FrontDoor.Door

variable {σ : Type} (s : Store σ)

/-- What goes wrong with a request about keys, in the order in which it goes wrong. -/
def faults (order : EntryOrder) (st : σ) (r : Request) : List Nat :=
  if r.method.name = "GET" then
    (if keyOf r = "" then [400] else []) ++ (if (s.get st (keyOf r)).1.isOk then [] else [500])
  else if r.method.name = "POST" then
    match StringMap.read? r.body with
    | none => [400]
    | some entries => if (setAll s st (order.arrange entries)).1 then [] else [500]
  else if r.method.name = "DELETE" then
    if keyOf r = "" then [400] else if (s.delete st (keyOf r)).1.isOk then [] else [500]
  else [405]

/-- What goes wrong in a visit, under the method of the request. -/
def visitFaults (door : Door σ) (v : Visit) : List (Method × Nat) :=
  if Route.IsKeyPath v.request.path then
    (faults s v.order door.store v.request).map (v.request.method, ·)
  else []

/-- What goes wrong in a run. -/
def faultLog : Door σ → List Visit → List (Method × Nat)
  | _, [] => []
  | door, v :: visits => visitFaults s door v ++ faultLog (visit s door v).2 visits

/-! ## Faults -/

theorem failures_readKey (st : σ) (key : String) :
    (readKey s st key).failures =
      (if key = "" then [400] else []) ++ (if (s.get st key).1.isOk then [] else [500]) := by
  unfold readKey
  rcases s.get st key with ⟨_ | _, st'⟩
  · rfl
  · exact (List.append_nil _).symm

theorem failures_writeKeys (order : EntryOrder) (st : σ) (body : Bytes) :
    (writeKeys s order st body).failures =
      match StringMap.read? body with
      | none => [400]
      | some entries => if (setAll s st (order.arrange entries)).1 then [] else [500] := by
  unfold writeKeys
  cases StringMap.read? body <;> rfl

theorem failures_removeKey (st : σ) (key : String) :
    (removeKey s st key).failures =
      if key = "" then [400] else if (s.delete st key).1.isOk then [] else [500] := by
  unfold removeKey
  split
  · rfl
  · rcases s.delete st key with ⟨_ | _, st'⟩ <;> rfl

theorem failures_outcome (door : Door σ) (v : Visit) :
    (outcome s door v).failures = faults s v.order door.store v.request := by
  rw [outcome, faults]
  by_cases hget : v.request.method.name = "GET"
  · rw [if_pos hget, keyOutcome_of_get hget, failures_readKey]
  by_cases hpost : v.request.method.name = "POST"
  · rw [if_neg hget, if_pos hpost, keyOutcome_of_post hpost, failures_writeKeys]
  by_cases hdelete : v.request.method.name = "DELETE"
  · rw [if_neg hget, if_neg hpost, if_pos hdelete, keyOutcome_of_delete hdelete,
      failures_removeKey]
  · rw [if_neg hget, if_neg hpost, if_neg hdelete, keyOutcome_of_other hget hpost hdelete]
    rfl

/-- The statuses under which requests about keys fail. -/
theorem mem_faults {order : EntryOrder} {st : σ} {r : Request} {status : Nat}
    (h : status ∈ faults s order st r) : status = 400 ∨ status = 405 ∨ status = 500 := by
  unfold faults at h
  split at h
  · rcases List.mem_append.mp h with h | h <;> split at h <;> simp_all
  · split at h
    · split at h
      · simp_all
      · split at h <;> simp_all
    · split at h
      · split at h
        · simp_all
        · split at h <;> simp_all
      · simp_all

theorem three_digits_of_mem_faults {order : EntryOrder} {st : σ} {r : Request} {status : Nat}
    (h : status ∈ faults s order st r) : 100 ≤ status ∧ status < 1000 := by
  have := mem_faults s h
  omega

theorem three_digits_of_mem_visitFaults {door : Door σ} {v : Visit} {e : Method × Nat}
    (h : e ∈ visitFaults s door v) : 100 ≤ e.2 ∧ e.2 < 1000 := by
  unfold visitFaults at h
  split at h
  · obtain ⟨status, hstatus, rfl⟩ := List.mem_map.mp h
    exact three_digits_of_mem_faults s hstatus
  · simp at h

theorem three_digits_of_mem_faultLog {door : Door σ} {visits : List Visit} {e : Method × Nat}
    (h : e ∈ faultLog s door visits) : 100 ≤ e.2 ∧ e.2 < 1000 := by
  induction visits generalizing door with
  | nil => simp [faultLog] at h
  | cons v visits ih =>
    rcases List.mem_append.mp h with h | h
    · exact three_digits_of_mem_visitFaults s h
    · exact ih h

/-! ## One visit -/

variable (door : Door σ) (v : Visit)

theorem metrics_visit_of_key (h : Route.IsKeyPath v.request.path) :
    (visit s door v).2.metrics =
      (door.metrics.countErrors keyEndpoint v.request.method.name
        (faults s v.order door.store v.request)).observeLatency keyEndpoint v.request.method.name
          (.ofNat v.elapsed) := by
  rw [visit_metrics s door h, failures_outcome]

theorem metrics_visit_of_not_key (h : ¬Route.IsKeyPath v.request.path) :
    (visit s door v).2.metrics = door.metrics :=
  metrics_serve_of_not_key s v.order door v.request v.elapsed h

theorem requests_visit (m : Method) :
    (visit s door v).2.metrics.requests keyEndpoint m.name =
      door.metrics.requests keyEndpoint m.name +
        if v.request.method = m ∧ Route.IsKeyPath v.request.path then 1 else 0 := by
  by_cases h : Route.IsKeyPath v.request.path
  · have hkey : RequestMetrics.latencyKey keyEndpoint m.name =
        RequestMetrics.latencyKey keyEndpoint v.request.method.name ↔ v.request.method = m := by
      constructor
      · intro hkey
        exact Method.ext (RequestMetrics.latencyKey_injective hkey).symm
      · rintro rfl
        rfl
    rw [metrics_visit_of_key s door v h, RequestMetrics.requests_observeLatency,
      RequestMetrics.requests_countErrors]
    simp only [hkey, h, and_true]
  · rw [metrics_visit_of_not_key s door v h, if_neg fun hv => h hv.2, Nat.add_zero]

/-- Every fault of a visit is counted under its method and its status, and nothing else is. -/
theorem errors_visit (m : Method) {status : Nat} (h₁ : 100 ≤ status) (h₂ : status < 1000) :
    (visit s door v).2.metrics.errors keyEndpoint m.name status =
      door.metrics.errors keyEndpoint m.name status +
        (visitFaults s door v).count (m, status) := by
  by_cases h : Route.IsKeyPath v.request.path
  · rw [metrics_visit_of_key s door v h, RequestMetrics.errors_observeLatency,
      RequestMetrics.errors_countErrors, visitFaults, if_pos h, List.count, List.countP_map]
    congr 1
    -- Two label texts may read the same, but not with two statuses of three digits.
    refine List.countP_congr fun status' hmem => ?_
    obtain ⟨h₃, h₄⟩ := three_digits_of_mem_faults s hmem
    rw [decide_eq_true_eq, Function.comp_apply, beq_iff_eq, Prod.mk.injEq]
    constructor
    · intro hkey
      obtain ⟨hmethod, hstatus⟩ := RequestMetrics.failureKey_injective h₁ h₂ h₃ h₄ hkey
      exact ⟨Method.ext hmethod.symm, hstatus.symm⟩
    · rintro ⟨rfl, rfl⟩
      rfl
  · rw [metrics_visit_of_not_key s door v h, visitFaults, if_neg h, List.count_nil, Nat.add_zero]

/-! ## Runs -/

theorem requests_after (visits : List Visit) (m : Method) :
    (after s door visits).metrics.requests keyEndpoint m.name =
      door.metrics.requests keyEndpoint m.name +
        visits.countP fun v => v.request.method = m ∧ Route.IsKeyPath v.request.path := by
  induction visits generalizing door with
  | nil => rfl
  | cons v visits ih =>
    rw [after_cons, ih, requests_visit, List.countP_cons]
    simp only [decide_eq_true_eq]
    omega

theorem errors_after (visits : List Visit) (m : Method) {status : Nat} (h₁ : 100 ≤ status)
    (h₂ : status < 1000) :
    (after s door visits).metrics.errors keyEndpoint m.name status =
      door.metrics.errors keyEndpoint m.name status +
        (faultLog s door visits).count (m, status) := by
  induction visits generalizing door with
  | nil => rfl
  | cons v visits ih =>
    rw [after_cons, ih, errors_visit s door v m h₁ h₂, faultLog, List.count_append, Nat.add_assoc]

/-- **The counters are the history.** After a run from fresh metrics, over any store, the latencies
of a method are the requests about keys with that method, and the failures of a method and a status
of three digits are the faults of the run with both. Other requests change no series, and no two
pairs of a method and a status that a door counts share one. -/
theorem counts_after_run (st : σ) (visits : List Visit) :
    let start : Door σ := ⟨st, .new⟩
    let metrics := (after s start visits).metrics
    (∀ m : Method, (metrics.requestCount "/key" m.name).1 =
      visits.countP fun v => v.request.method = m ∧ Route.IsKeyPath v.request.path) ∧
    (∀ (m : Method) (status : Nat), 100 ≤ status → status < 1000 →
      (metrics.errorCount "/key" m.name status).1 =
        (faultLog s start visits).count (m, status)) ∧
    (∀ (door : Door σ) (v : Visit), ¬Route.IsKeyPath v.request.path →
      (visit s door v).2.metrics = door.metrics) ∧
    ∀ e ∈ faultLog s start visits, ∀ e' ∈ faultLog s start visits,
      SeriesTable.key (RequestMetrics.failureLabels "/key" e.1.name e.2) =
        SeriesTable.key (RequestMetrics.failureLabels "/key" e'.1.name e'.2) → e = e' := by
  intro start metrics
  refine ⟨fun m => ?_, fun m status h₁ h₂ => ?_, metrics_visit_of_not_key s, ?_⟩
  · exact (requests_after s start visits m).trans (Nat.zero_add _)
  · exact (errors_after s start visits m h₁ h₂).trans (Nat.zero_add _)
  · intro e he e' he' hkey
    obtain ⟨h₁, h₂⟩ := three_digits_of_mem_faultLog s he
    obtain ⟨h₃, h₄⟩ := three_digits_of_mem_faultLog s he'
    obtain ⟨hmethod, hstatus⟩ := RequestMetrics.failureKey_injective h₁ h₂ h₃ h₄ hkey
    exact Prod.ext (Method.ext hmethod) hstatus

/-- A GET without a key over a store that cannot answer fails twice, and is one request. -/
theorem counts_after_failing_get :
    let broken : Store Unit := ⟨fun st _ => (.error (.unavailable ""), st),
      fun st _ _ => (.ok (), st), fun st _ => (.ok (), st), fun st _ _ => (.ok (), st),
      fun st => ("", st)⟩
    let visits := [Visit.ofTexts .get "/key" "", Visit.ofTexts .get "/status" ""]
    let metrics := (after broken ⟨(), .new⟩ visits).metrics
    (100 ≤ 500 ∧ 500 < 1000) ∧ (metrics.requestCount "/key" "GET").1 = 1 ∧
      (metrics.errorCount "/key" "GET" 500).1 = 1 ∧
      (metrics.errorCount "/key" "GET" 400).1 = 1 := by
  intro broken visits metrics
  obtain ⟨hrequests, herrors, -⟩ := counts_after_run broken () visits
  have hvisits : (visits.countP fun v =>
      v.request.method = Method.get ∧ Route.IsKeyPath v.request.path) = 1 := by decide +kernel
  have hlog : faultLog broken ⟨(), .new⟩ visits = [(.get, 400), (.get, 500)] := by decide +kernel
  refine ⟨by decide, (hrequests .get).trans hvisits, ?_, ?_⟩
  · exact (herrors .get 500 (by decide) (by decide)).trans (by rw [hlog]; decide)
  · exact (herrors .get 400 (by decide) (by decide)).trans (by rw [hlog]; decide)

end FrontDoor.Door
