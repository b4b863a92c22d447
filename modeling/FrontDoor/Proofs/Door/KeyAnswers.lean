import FrontDoor.Proofs.Door.Accounting
import FrontDoor.Proofs.Door.Documents
import FrontDoor.Proofs.Door.Writing

/-!
# A request about keys, from end to end

A request about keys shows in four places: the failures that are counted, the status and the body of
the response, and the calls of the store. `KeyAnswer` says of each what it is when the request fails
under given statuses, and these are read off the answers of the store. Every request about keys has
such an answer (`key_answer`).
-/

namespace FrontDoor.Door

variable {σ : Type} (s : Store σ)

/-- What shows of a request about keys that fails under the statuses `F`, in this order. -/
structure KeyAnswer (door : Door σ) (v : Visit) (F : List Nat) : Prop where
  /-- A GET asks for its key once, also for the empty one. -/
  get : v.request.method.name = "GET" →
    F = (if keyOf v.request = "" then [400] else []) ++
      (if (s.get door.store (keyOf v.request)).1.isOk then [] else [500]) ∧
    calls s door v = [.get (keyOf v.request)]
  /-- A body that cannot be read touches nothing. -/
  unreadable : v.request.method.name = "POST" → StringMap.read? v.request.body = none →
    F = [400] ∧ calls s door v = []
  /-- One that can is written, and fails when an entry is refused. -/
  post : ∀ m, v.request.method.name = "POST" → StringMap.read? v.request.body = some m →
    (F = [] ∧ (∃ st', s.Stores door.store (v.order.arrange m) st') ∨
      F = [500] ∧ ∃ front e back st', v.order.arrange m = front ++ e :: back ∧
        s.Refuses door.store front e st') ∧
    ∀ c ∈ calls s door v, ∃ key value, c = .set key value
  /-- A DELETE asks to remove its key once, if it has one. -/
  delete : v.request.method.name = "DELETE" →
    F = (if keyOf v.request = "" then [400]
      else if (s.delete door.store (keyOf v.request)).1.isOk then [] else [500]) ∧
    calls s door v = if keyOf v.request = "" then [] else [.delete (keyOf v.request)]
  other : v.request.method.name ∉ ["GET", "POST", "DELETE"] → F = [405] ∧ calls s door v = []
  /-- Every failure is counted, one after the other, and then one latency. -/
  counted : (visit s door v).2.metrics =
    (F.foldl (fun m status => m.countError "/key" v.request.method.name status)
      door.metrics).observeLatency "/key" v.request.method.name (.ofNat v.elapsed)
  status : (visit s door v).1.status = F.head?.getD 200
  success : (visit s door v).1.status = 200 ↔ F = []
  /-- A GET that the store answers has a document, whatever the status. -/
  document : v.request.method.name = "GET" → ∀ value,
    (s.get door.store (keyOf v.request)).1 = .ok value →
      (visit s door v).1.body = Json.HtmlSafe.encode [(keyOf v.request, value)]
  no_document : (v.request.method.name = "GET" →
      (s.get door.store (keyOf v.request)).1.isOk = false) → (visit s door v).1.body = []
  /-- Nobody is admitted, and nobody asks for the status. -/
  keys_only : ∀ c ∈ calls s door v, c ≠ .status ∧ ∀ nodeId addr, c ≠ .join nodeId addr

variable {s} {door : Door σ} {v : Visit}

/-! ## Failures -/

theorem faults_of_get (h : v.request.method.name = "GET") :
    faults s v.order door.store v.request = (if keyOf v.request = "" then [400] else []) ++
      (if (s.get door.store (keyOf v.request)).1.isOk then [] else [500]) := by
  rw [faults, if_pos h]

theorem faults_of_delete (h : v.request.method.name = "DELETE") :
    faults s v.order door.store v.request = if keyOf v.request = "" then [400]
      else if (s.delete door.store (keyOf v.request)).1.isOk then [] else [500] := by
  rw [faults, if_neg (by rw [h]; decide), if_neg (by rw [h]; decide), if_pos h]

theorem faults_of_other (h : v.request.method.name ∉ ["GET", "POST", "DELETE"]) :
    faults s v.order door.store v.request = [405] := by
  simp only [List.mem_cons, List.not_mem_nil, or_false, not_or] at h
  obtain ⟨hget, hpost, hdelete⟩ := h
  rw [faults, if_neg hget, if_neg hpost, if_neg hdelete]

theorem faults_of_unreadable (hpost : v.request.method.name = "POST")
    (hbody : StringMap.read? v.request.body = none) :
    faults s v.order door.store v.request = [400] := by
  rw [← failures_outcome, outcome_of_unreadable hpost hbody]
  rfl

theorem faults_of_post {m : StringMap} (hpost : v.request.method.name = "POST")
    (hbody : StringMap.read? v.request.body = some m) :
    (faults s v.order door.store v.request = [] ∧
        ∃ st', s.Stores door.store (v.order.arrange m) st') ∨
      faults s v.order door.store v.request = [500] ∧
        ∃ front e back st', v.order.arrange m = front ++ e :: back ∧
          s.Refuses door.store front e st' := by
  rw [← failures_outcome]
  rcases setAll_cases s door.store (v.order.arrange m) with
    ⟨st', -, hstores⟩ | ⟨st', front, e, back, -, hentries, hrefuses⟩
  · rw [outcome_of_stores hpost hbody hstores]
    exact .inl ⟨rfl, st', hstores⟩
  · rw [outcome_of_refuses hpost hbody hentries hrefuses]
    exact .inr ⟨rfl, front, e, back, st', hentries, hrefuses⟩

/-- No failure reads as success. -/
theorem head_faults_eq_ok_iff :
    (faults s v.order door.store v.request).head?.getD 200 = 200 ↔
      faults s v.order door.store v.request = [] := by
  constructor
  · intro h
    cases hfaults : faults s v.order door.store v.request with
    | nil => rfl
    | cons status rest =>
      have hmem : status ∈ faults s v.order door.store v.request := by
        rw [hfaults]
        exact List.mem_cons_self
      rw [hfaults] at h
      obtain rfl : status = 200 := h
      rcases mem_faults s hmem with h | h | h <;> cases h
  · intro h
    rw [h]
    rfl

/-! ## Documents and calls -/

/-- Only what was read is put into a document. -/
theorem body_of_no_get (hkey : Route.IsKeyPath v.request.path)
    (h : v.request.method.name ≠ "GET") : (visit s door v).1.body = [] := by
  rw [visit_body s door hkey, outcome]
  by_cases hpost : v.request.method.name = "POST"
  · rw [keyOutcome_of_post hpost, writeKeys]
    split <;> rfl
  by_cases hdelete : v.request.method.name = "DELETE"
  · rw [keyOutcome_of_delete hdelete, removeKey]
    split
    · rfl
    · rcases s.delete door.store (keyOf v.request) with ⟨_ | _, st'⟩ <;> rfl
  · rw [keyOutcome_of_other h hpost hdelete]
    rfl

theorem calls_of_other (hkey : Route.IsKeyPath v.request.path)
    (h : v.request.method.name ∉ ["GET", "POST", "DELETE"]) : calls s door v = [] := by
  simp only [List.mem_cons, List.not_mem_nil, or_false, not_or] at h
  obtain ⟨hget, hpost, hdelete⟩ := h
  rw [calls_eq_log hkey, keyOutcome_of_other hget hpost hdelete]

theorem set_of_mem_calls (hkey : Route.IsKeyPath v.request.path)
    (hpost : v.request.method.name = "POST") {c : Call} (h : c ∈ calls s door v) :
    ∃ key value, c = .set key value := by
  rcases mem_calls_of_key hkey h with ⟨hget, -⟩ | ⟨hdelete, -⟩ | ⟨-, key, value, -, -, rfl⟩
  · rw [hpost] at hget
    exact absurd hget (by decide)
  · rw [hpost] at hdelete
    exact absurd hdelete (by decide)
  · exact ⟨key, value, rfl⟩

/-! ## The answer -/

/-- **A request about keys, from end to end.** Over any store, whatever it answers, there is one
list of failures behind all that shows of a request about keys: they are counted in their order, the
first is the status of the response, or 200 when there is none, and the calls that the method allows
are what they are read off. The body is the document of the key and its value when a GET was
answered, also one without a key, and empty otherwise. -/
theorem key_answer (s : Store σ) (door : Door σ) (v : Visit)
    (hroute : routeOf v.request = .key) : ∃ F, KeyAnswer s door v F := by
  have hkey := Route.resolve_eq_key_iff.mp hroute
  have hstatus : (visit s door v).1.status =
      (faults s v.order door.store v.request).head?.getD 200 := by
    rw [visit_status s door hkey, failures_outcome]
    rfl
  refine ⟨faults s v.order door.store v.request, ?_⟩
  constructor
  case get => exact fun hget => ⟨faults_of_get hget, calls_of_get hkey hget⟩
  case unreadable =>
    exact fun hpost hbody =>
      ⟨faults_of_unreadable hpost hbody, calls_of_unreadable hpost hkey hbody⟩
  case post =>
    exact fun m hpost hbody => ⟨faults_of_post hpost hbody, fun c => set_of_mem_calls hkey hpost⟩
  case delete => exact fun hdelete => ⟨faults_of_delete hdelete, calls_of_delete hkey hdelete⟩
  case other => exact fun hother => ⟨faults_of_other hother, calls_of_other hkey hother⟩
  case counted => exact metrics_visit_of_key s door v hkey
  case status => exact hstatus
  case success =>
    rw [hstatus]
    exact head_faults_eq_ok_iff
  case document =>
    intro hget value hvalue
    rw [body_of_get s door v hget hkey, hvalue]
  case no_document =>
    intro hnone
    by_cases hget : v.request.method.name = "GET"
    · have hrefused := hnone hget
      rw [body_of_get s door v hget hkey]
      cases hvalue : (s.get door.store (keyOf v.request)).1 with
      | ok value =>
        rw [hvalue] at hrefused
        cases hrefused
      | error e => rfl
    · exact body_of_no_get hkey hget
  case keys_only =>
    intro c hc
    rcases mem_calls_of_key hkey hc with ⟨-, rfl⟩ | ⟨-, -, rfl⟩ | ⟨-, _, _, -, -, rfl⟩
    all_goals exact ⟨Call.noConfusion, fun _ _ => Call.noConfusion⟩

/-- A GET without a key is a failure, and is answered with the value of the empty key all the same.
-/
theorem key_answer_without_key :
    let node := (MemoryStore.new "n" "h:1").set "" "v"
    let get := Visit.ofTexts .get "/keys" ""
    let reply := visit MemoryStore.store ⟨node, .new⟩ get
    routeOf get.request = .key ∧ reply.1.status = 400 ∧
      reply.1.body = Json.HtmlSafe.encode [("", "v")] ∧
      calls MemoryStore.store ⟨node, .new⟩ get = [.get ""] ∧
      reply.2.metrics.errors "/key" "GET" 400 = 1 := by
  intro node get reply
  have hroute : routeOf get.request = .key := by decide +kernel
  have hempty : keyOf get.request = "" := by decide +kernel
  obtain ⟨F, h⟩ := key_answer MemoryStore.store ⟨node, .new⟩ get hroute
  obtain ⟨hF, hcalls⟩ := h.get rfl
  rw [hempty] at hF hcalls
  have hbody := h.document rfl _ rfl
  rw [hempty] at hbody
  refine ⟨hroute, ?_, hbody, hcalls, ?_⟩
  · rw [h.status, hF]
    rfl
  · rw [h.counted, hF]
    decide +kernel

end FrontDoor.Door
