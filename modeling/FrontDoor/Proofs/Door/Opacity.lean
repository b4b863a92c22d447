import FrontDoor.Proofs.Door.Run
import Mathlib.Data.List.Forall2

/-!
# What a client cannot learn

Two stores may fail on the same calls for different reasons. `AlikeButErrors` says that nothing else
sets them apart, up to a relation between their states. Every endpoint keeps the relation and
answers the same in front of both (`visit_alike`), so by induction nothing that a client or the
counters show after any visit of a run depends on the errors.
-/

namespace FrontDoor

/-- Two calls that went the same way, to related states: with the same value, or with an error each.
-/
inductive SameCall {α σ τ : Type} (R : σ → τ → Prop) :
    Except StoreError α × σ → Except StoreError α × τ → Prop where
  | ok {a : σ} {b : τ} (value : α) : R a b → SameCall R (.ok value, a) (.ok value, b)
  | error {a : σ} {b : τ} (e e' : StoreError) : R a b → SameCall R (.error e, a) (.error e', b)

/-- From related states two stores answer alike and go to related states, but where both fail they
may say why as they like. -/
structure Store.AlikeButErrors {σ τ : Type} (s : Store σ) (t : Store τ) (R : σ → τ → Prop) :
    Prop where
  get : ∀ {a b}, R a b → ∀ key, SameCall R (s.get a key) (t.get b key)
  set : ∀ {a b}, R a b → ∀ key value, SameCall R (s.set a key value) (t.set b key value)
  delete : ∀ {a b}, R a b → ∀ key, SameCall R (s.delete a key) (t.delete b key)
  join : ∀ {a b}, R a b → ∀ nodeId addr, SameCall R (s.join a nodeId addr) (t.join b nodeId addr)
  status_text : ∀ {a b}, R a b → (s.status a).1 = (t.status b).1
  status_state : ∀ {a b}, R a b → R (s.status a).2 (t.status b).2

namespace RequestMetrics

/-- The same counts of requests and of failures, under all label values. -/
structure SameCounts (m m' : RequestMetrics) : Prop where
  requests : ∀ endpoint method, m.requests endpoint method = m'.requests endpoint method
  errors : ∀ endpoint method status,
    m.errors endpoint method status = m'.errors endpoint method status

theorem SameCounts.rfl {m : RequestMetrics} : SameCounts m m where
  requests _ _ := Eq.refl _
  errors _ _ _ := Eq.refl _

/-- Counting the same failures keeps counts the same, and so does a latency, however long. -/
theorem SameCounts.record {m m' : RequestMetrics} (h : SameCounts m m') (endpoint method : String)
    (statuses : List Nat) (nanos nanos' : Binary64) :
    SameCounts
      ((m.countErrors endpoint method statuses).observeLatency endpoint method nanos)
      ((m'.countErrors endpoint method statuses).observeLatency endpoint method nanos') where
  requests endpoint' method' := by
    rw [requests_observeLatency, requests_countErrors, requests_observeLatency,
      requests_countErrors, h.requests]
  errors endpoint' method' status' := by
    rw [errors_observeLatency, errors_countErrors, errors_observeLatency, errors_countErrors,
      h.errors]

end RequestMetrics

/-- The same request with its entries taken in the same order, whatever time it takes. -/
structure Visit.SameButTime (v w : Visit) : Prop where
  request : v.request = w.request
  order : v.order = w.order

namespace Door

open RequestMetrics (SameCounts)

variable {σ τ : Type} {R : σ → τ → Prop}

/-- The same failures and the same document, with related states. -/
structure SameOutcome (R : σ → τ → Prop) (o : Outcome σ) (o' : Outcome τ) : Prop where
  failures : o.failures = o'.failures
  document : o.document = o'.document
  store : R o.store o'.store

/-- Related states behind the same counts. -/
structure SameDoor (R : σ → τ → Prop) (door : Door σ) (door' : Door τ) : Prop where
  store : R door.store door'.store
  metrics : SameCounts door.metrics door'.metrics

/-- The same response, from doors that stay related. -/
structure SameReply (R : σ → τ → Prop) (p : Response × Door σ) (q : Response × Door τ) : Prop where
  response : p.1 = q.1
  door : SameDoor R p.2 q.2

variable {s : Store σ} {t : Store τ} (h : s.AlikeButErrors t R)
include h

/-! ## The key endpoint -/

/-- Both stop at the same entry, if they stop. -/
theorem setAll_alike {a : σ} {b : τ} (hR : R a b) (l : List (String × String)) :
    (setAll s a l).1 = (setAll t b l).1 ∧ R (setAll s a l).2 (setAll t b l).2 := by
  induction l generalizing a b with
  | nil => exact ⟨rfl, hR⟩
  | cons e rest ih =>
    obtain ⟨key, value⟩ := e
    have hset := h.set hR key value
    rw [setAll_cons, setAll_cons]
    generalize s.set a key value = p, t.set b key value = q at hset ⊢
    cases hset with
    | ok value hR' => exact ih hR'
    | error e e' hR' => exact ⟨rfl, hR'⟩

section Key

variable {a : σ} {b : τ} (hR : R a b)
include hR

theorem readKey_alike (key : String) : SameOutcome R (readKey s a key) (readKey t b key) := by
  have hget := h.get hR key
  unfold readKey
  generalize s.get a key = p, t.get b key = q at hget ⊢
  cases hget with
  | ok value hR' => exact ⟨rfl, rfl, hR'⟩
  | error e e' hR' => exact ⟨rfl, rfl, hR'⟩

theorem removeKey_alike (key : String) : SameOutcome R (removeKey s a key) (removeKey t b key) := by
  unfold removeKey
  by_cases hkey : key = ""
  · rw [if_pos hkey, if_pos hkey]
    exact ⟨rfl, rfl, hR⟩
  · have hdelete := h.delete hR key
    rw [if_neg hkey, if_neg hkey]
    generalize s.delete a key = p, t.delete b key = q at hdelete ⊢
    cases hdelete with
    | ok value hR' => exact ⟨rfl, rfl, hR'⟩
    | error e e' hR' => exact ⟨rfl, rfl, hR'⟩

theorem writeKeys_alike (order : EntryOrder) (body : Bytes) :
    SameOutcome R (writeKeys s order a body) (writeKeys t order b body) := by
  unfold writeKeys
  cases StringMap.read? body with
  | none => exact ⟨rfl, rfl, hR⟩
  | some entries =>
    obtain ⟨hall, hR'⟩ := setAll_alike h hR (order.arrange entries)
    refine ⟨?_, rfl, hR'⟩
    show (if (setAll s a (order.arrange entries)).1 then [] else [internalError]) = _
    rw [hall]

theorem keyOutcome_alike (order : EntryOrder) (method : Method) (key : String) (body : Bytes) :
    SameOutcome R (keyOutcome s order a method key body)
      (keyOutcome t order b method key body) := by
  unfold keyOutcome
  split
  · exact readKey_alike h hR key
  split
  · exact writeKeys_alike h hR order body
  split
  · exact removeKey_alike h hR key
  · exact ⟨rfl, rfl, hR⟩

end Key

/-! ## One visit -/

section Reply

variable {door : Door σ} {door' : Door τ} (hdoor : SameDoor R door door')
include hdoor

theorem handleKey_alike (order : EntryOrder) (method : Method) (key : String) (body : Bytes)
    (elapsed elapsed' : Nat) :
    SameReply R (handleKey s order door method key body elapsed)
      (handleKey t order door' method key body elapsed') := by
  have houtcome := keyOutcome_alike h hdoor.store order method key body
  refine ⟨?_, ?_, ?_⟩
  · -- The recorder knows the failures only.
    simp only [handleKey, Recorder.failAll_start, houtcome.failures, houtcome.document]
  · exact houtcome.store
  · rw [handleKey_metrics, handleKey_metrics, houtcome.failures]
    exact hdoor.metrics.record keyEndpoint method.name _ (.ofNat elapsed) (.ofNat elapsed')

theorem handleJoin_alike (body : Bytes) :
    SameReply R (handleJoin s door body) (handleJoin t door' body) := by
  rw [handleJoin_eq, handleJoin_eq]
  cases (StringMap.read? body).bind joinFields? with
  | none => exact ⟨rfl, hdoor⟩
  | some fields =>
    have hjoin := h.join hdoor.store fields.1 fields.2
    dsimp only
    generalize s.join door.store fields.1 fields.2 = p,
      t.join door'.store fields.1 fields.2 = q at hjoin ⊢
    cases hjoin with
    | ok value hR => exact ⟨rfl, hR, hdoor.metrics⟩
    | error e e' hR => exact ⟨rfl, hR, hdoor.metrics⟩

theorem handleStatus_alike : SameReply R (handleStatus s door) (handleStatus t door') where
  response := by
    show Response.ofContent statusOk plainText (Utf8.encode (s.status door.store).1.toList) = _
    rw [h.status_text hdoor.store]
    rfl
  door := ⟨h.status_state hdoor.store, hdoor.metrics⟩

theorem answer_alike (order : EntryOrder) (r : Request) (elapsed elapsed' : Nat) (route : Route) :
    SameReply R (answer s order door r elapsed route) (answer t order door' r elapsed' route) := by
  cases route with
  | key => exact handleKey_alike h hdoor order r.method (keyOf r) r.body elapsed elapsed'
  | join => exact handleJoin_alike h hdoor r.body
  | status => exact handleStatus_alike h hdoor
  | unknown => exact ⟨rfl, hdoor⟩

theorem visit_alike {v w : Visit} (hvisit : v.SameButTime w) :
    SameReply R (visit s door v) (visit t door' w) := by
  have hanswer :=
    answer_alike h hdoor w.order w.request v.elapsed w.elapsed (routeOf w.request)
  rw [visit, visit, serve_eq, serve_eq, hvisit.request, hvisit.order]
  exact ⟨congrArg Response.withLength hanswer.response, hanswer.door⟩

end Reply

omit h

/-! ## Runs -/

/-- What shows after a visit: the response, and the counts under all label values. -/
structure Observation where
  response : Response
  requests : String → String → Nat
  errors : String → String → Nat → Nat

/-- What shows of a reply and of the door behind it. -/
def observe (p : Response × Door σ) : Observation where
  response := p.1
  requests endpoint method := (p.2.metrics.requestCount endpoint method).1
  errors endpoint method status := (p.2.metrics.errorCount endpoint method status).1

/-- What shows after each visit of a run. -/
def observations (s : Store σ) : Door σ → List Visit → List Observation
  | _, [] => []
  | door, v :: visits => observe (visit s door v) :: observations s (visit s door v).2 visits

theorem observe_alike {p : Response × Door σ} {q : Response × Door τ} (hreply : SameReply R p q) :
    observe p = observe q := by
  obtain ⟨hresponse, -, hrequests, herrors⟩ := hreply
  unfold observe
  rw [Observation.mk.injEq]
  refine ⟨hresponse, ?_, ?_⟩
  · funext endpoint method
    exact hrequests endpoint method
  · funext endpoint method status
    exact herrors endpoint method status

theorem observations_alike (h : s.AlikeButErrors t R) {door : Door σ} {door' : Door τ}
    (hdoor : SameDoor R door door') {visits visits' : List Visit}
    (hvisits : List.Forall₂ Visit.SameButTime visits visits') :
    observations s door visits = observations t door' visits' := by
  induction hvisits generalizing door door' with
  | nil => rfl
  | cons hv _ ih =>
    have hreply := visit_alike h hdoor hv
    rw [observations, observations, observe_alike hreply, ih hreply.door]

/-- **Errors are opaque.** Take two stores that do the same to related states and answer the same,
but where both fail may give different reasons. Over the same requests, with the entries of their
bodies taken in the same order, every response and every count of requests and failures after every
visit is the same in front of both. -/
theorem observations_of_alike_stores (s : Store σ) (t : Store τ) (h : s.AlikeButErrors t R) (a : σ)
    (b : τ) (hR : R a b) (metrics : RequestMetrics) (visits visits' : List Visit)
    (hvisits : List.Forall₂ Visit.SameButTime visits visits') :
    observations s ⟨a, metrics⟩ visits = observations t ⟨b, metrics⟩ visits' := by
  have hstart : SameDoor R ⟨a, metrics⟩ ⟨b, metrics⟩ := ⟨hR, .rfl⟩
  exact observations_alike h hstart hvisits

/-- A store that refuses for the sake of the membership looks like one that has shut down, also when
it fails in the middle of a body. -/
theorem membership_looks_unavailable :
    let failing (e : StoreError) : Store Nat :=
      ⟨fun n _ => (.error e, n), fun n _ _ => (if n = 0 then .ok () else .error e, n + 1),
        fun n _ => (.error e, n), fun n _ _ => (.error e, n), fun n => ("up", n)⟩
    let s := failing (.membership "n at h:1 conflicts with member m")
    let t := failing (.unavailable "shut down")
    let visits := [Visit.ofTexts .post "/key" "\x7b\"a\":\"1\",\"b\":\"2\"\x7d",
      Visit.ofTexts .get "/key/a" "", Visit.ofTexts .delete "/key/a" "",
      Visit.ofTexts .post "/join" "\x7b\"id\":\"n\",\"addr\":\"h:1\"\x7d",
      Visit.ofTexts .get "/status" ""]
    let late := visits.map fun v => { v with elapsed := 7 }
    s.AlikeButErrors t Eq ∧ List.Forall₂ Visit.SameButTime visits late ∧
      observations s ⟨0, .new⟩ visits = observations t ⟨0, .new⟩ late ∧
      (observations t ⟨0, .new⟩ late).map (fun o => o.response.status) =
        [500, 500, 500, 500, 200] := by
  intro failing s t visits late
  have halike : s.AlikeButErrors t Eq :=
    { get := fun hR _ => .error _ _ hR
      set := by
        rintro n _ rfl key value
        by_cases hn : n = 0
        · have hs : s.set n key value = (.ok (), n + 1) := Prod.ext (if_pos hn) rfl
          have ht : t.set n key value = (.ok (), n + 1) := Prod.ext (if_pos hn) rfl
          rw [hs, ht]
          exact .ok () rfl
        · have hs : s.set n key value = (.error _, n + 1) := Prod.ext (if_neg hn) rfl
          have ht : t.set n key value = (.error _, n + 1) := Prod.ext (if_neg hn) rfl
          rw [hs, ht]
          exact .error _ _ rfl
      delete := fun hR _ => .error _ _ hR
      join := fun hR _ _ => .error _ _ hR
      status_text := fun _ => rfl
      status_state := fun hR => hR }
  have hvisits : List.Forall₂ Visit.SameButTime visits late :=
    List.forall₂_map_right_iff.mpr (List.forall₂_same.mpr fun _ _ => ⟨rfl, rfl⟩)
  exact ⟨halike, hvisits, observations_of_alike_stores s t halike 0 0 rfl .new visits late hvisits,
    by decide +kernel⟩

end Door

end FrontDoor
