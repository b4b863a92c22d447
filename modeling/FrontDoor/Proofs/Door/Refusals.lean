import FrontDoor.Proofs.Door.Contents
import FrontDoor.Proofs.Store.Run

/-!
# Refused requests

In front of a node no endpoint fails once it has begun to change something: the entries of a body
that was read are all set, and a join is refused before anything is written. So a request that is
not answered with 200 leaves the node as it was (`store_of_refused`), and striking such requests
from a run makes no difference to the node (`store_after_granted`).
-/

namespace FrontDoor.Door

variable (door : Door MemoryStore) (v : Visit)

/-! ## The key endpoint -/

theorem writeKeys_of_failure {order : EntryOrder} {st : MemoryStore} {body : Bytes}
    (h : (writeKeys MemoryStore.store order st body).failures ≠ []) :
    (writeKeys MemoryStore.store order st body).store = st := by
  unfold writeKeys at h ⊢
  cases hbody : StringMap.read? body with
  | none => rfl
  | some entries =>
    -- A node accepts every entry, so that a body which is read does not fail.
    simp only [hbody, MemoryStore.setAll_store] at h
    exact absurd rfl h

theorem removeKey_of_failure {st : MemoryStore} {key : String}
    (h : (removeKey MemoryStore.store st key).failures ≠ []) :
    (removeKey MemoryStore.store st key).store = st := by
  unfold removeKey at h ⊢
  by_cases hkey : key = ""
  · rw [if_pos hkey]
  · rw [if_neg hkey] at h
    exact absurd rfl h

theorem readKey_leaves_store (st : MemoryStore) (key : String) :
    (readKey MemoryStore.store st key).store = st := by
  rw [readKey_store]
  rfl

theorem keyOutcome_of_failure {order : EntryOrder} {st : MemoryStore} {method : Method}
    {key : String} {body : Bytes}
    (h : (keyOutcome MemoryStore.store order st method key body).failures ≠ []) :
    (keyOutcome MemoryStore.store order st method key body).store = st := by
  by_cases hget : method.name = "GET"
  · rw [keyOutcome_of_get hget]
    exact readKey_leaves_store st key
  by_cases hpost : method.name = "POST"
  · rw [keyOutcome_of_post hpost] at h ⊢
    exact writeKeys_of_failure h
  by_cases hdelete : method.name = "DELETE"
  · rw [keyOutcome_of_delete hdelete] at h ⊢
    exact removeKey_of_failure h
  · rw [keyOutcome_of_other hget hpost hdelete]

/-! ## The join endpoint -/

theorem handleJoin_of_refused {body : Bytes}
    (h : (handleJoin MemoryStore.store door body).1.status ≠ statusOk) :
    (handleJoin MemoryStore.store door body).2.store = door.store := by
  rw [handleJoin_eq] at h ⊢
  cases hfields : (StringMap.read? body).bind joinFields? with
  | none => rfl
  | some fields =>
    rw [hfields] at h
    dsimp only at h ⊢
    cases hjoin : (MemoryStore.store.join door.store fields.1 fields.2).1 with
    | ok _ =>
      rw [hjoin] at h
      exact absurd rfl h
    | error e => exact door.store.join_state_of_error hjoin

/-! ## One visit -/

theorem store_of_refused (h : (visit MemoryStore.store door v).1.status ≠ statusOk) :
    (visit MemoryStore.store door v).2.store = door.store := by
  by_cases hkey : Route.IsKeyPath v.request.path
  · rw [visit_status MemoryStore.store door hkey] at h
    rw [visit_store MemoryStore.store door hkey]
    refine keyOutcome_of_failure fun hnone => h ?_
    rw [outcome, hnone]
    rfl
  · rw [← Route.resolve_eq_key_iff] at hkey
    rw [visit, serve_eq] at h ⊢
    cases hroute : routeOf v.request with
    | key => exact absurd hroute hkey
    | join =>
      rw [hroute] at h
      exact handleJoin_of_refused door h
    | status => rfl
    | unknown => rfl

theorem store_of_get (hkey : Route.IsKeyPath v.request.path)
    (hget : v.request.method.name = "GET") :
    (visit MemoryStore.store door v).2.store = door.store := by
  rw [visit_store MemoryStore.store door hkey, outcome, keyOutcome_of_get hget]
  exact readKey_leaves_store _ _

theorem store_of_status (h : routeOf v.request = .status) :
    (visit MemoryStore.store door v).2.store = door.store := by
  rw [visit, serve_eq, h]
  rfl

/-! ## Runs -/

/-- What becomes of a node does not depend on the metrics beside it. -/
theorem visit_store_congr {σ : Type} (s : Store σ) {door door' : Door σ}
    (h : door.store = door'.store) (v : Visit) :
    (visit s door v).2.store = (visit s door' v).2.store := by
  rw [visit, visit, serve_eq, serve_eq]
  cases routeOf v.request with
  | key =>
    show (handleKey _ _ _ _ _ _ _).2.store = (handleKey _ _ _ _ _ _ _).2.store
    rw [handleKey_store, handleKey_store, h]
  | join =>
    show (handleJoin s door _).2.store = (handleJoin s door' _).2.store
    rw [handleJoin_eq, handleJoin_eq]
    cases (StringMap.read? v.request.body).bind joinFields? with
    | none => exact h
    | some fields => simp only [h]
  | status =>
    show (s.status door.store).2 = (s.status door'.store).2
    rw [h]
  | unknown => exact h

theorem after_store_congr {σ : Type} (s : Store σ) {door door' : Door σ}
    (h : door.store = door'.store) (visits : List Visit) :
    (after s door visits).store = (after s door' visits).store := by
  induction visits generalizing door door' with
  | nil => exact h
  | cons v visits ih => exact ih (visit_store_congr s h v)

/-- The visits of a run that are answered with success. -/
def granted : Door MemoryStore → List Visit → List Visit
  | _, [] => []
  | door, v :: visits =>
    let rest := granted (visit MemoryStore.store door v).2 visits
    if (visit MemoryStore.store door v).1.status = 200 then v :: rest else rest

/-- The node after a run is what the successful visits alone make of it. -/
theorem store_after_granted (visits : List Visit) :
    (after MemoryStore.store door visits).store =
      (after MemoryStore.store door (granted door visits)).store := by
  induction visits generalizing door with
  | nil => rfl
  | cons v visits ih =>
    rw [after_cons, ih, granted]
    by_cases hok : (visit MemoryStore.store door v).1.status = 200
    · rw [if_pos hok, after_cons]
    · rw [if_neg hok]
      exact after_store_congr MemoryStore.store (store_of_refused door v hok) _

/-- **A refused request changes nothing.** Whatever a node holds, and also when its membership is
poisoned, a request that is not answered with 200 leaves it exactly as it was: its keys, its members
and whether they are poisoned. So does a GET about keys, and every request for the status, whatever
the answer. In a run, then, all that counts is what was answered with 200. -/
theorem refused_changes_nothing (door : Door MemoryStore) (v : Visit) :
    let reply := visit MemoryStore.store door v
    (reply.1.status ≠ 200 → reply.2.store = door.store) ∧
      (Route.IsKeyPath v.request.path → v.request.method.name = "GET" →
        reply.2.store = door.store) ∧
      (routeOf v.request = .status → reply.2.store = door.store) ∧
      ∀ visits, (after MemoryStore.store door visits).store =
        (after MemoryStore.store door (granted door visits)).store :=
  ⟨store_of_refused door v, store_of_get door v, store_of_status door v, store_after_granted door⟩

/-- A node whose membership is poisoned refuses a join that it would have accepted before, and keeps
its key. -/
theorem poisoned_join_changes_nothing :
    let node := (MemoryStore.new "n" "h:1").after [.set "k" "v", .crashJoin "m" "h:2"]
    let reply (v : Visit) := visit MemoryStore.store ⟨node, .new⟩ v
    let join := Visit.ofTexts .post "/join" "\x7b\"id\":\"x\",\"addr\":\"h:3\"\x7d"
    let get := Visit.ofTexts .get "/key/" ""
    let status := Visit.ofTexts .post "/status" ""
    node.poisoned = true ∧
      (reply join).1.status ≠ 200 ∧ (reply join).2.store = node ∧
      Route.IsKeyPath get.request.path ∧ get.request.method.name = "GET" ∧
      (reply get).2.store = node ∧
      routeOf status.request = .status ∧ (reply status).2.store = node := by
  intro node reply join get status
  have hpoisoned : node.poisoned = true := by decide +kernel
  have hrefused : (reply join).1.status ≠ 200 := by decide +kernel
  have hkey : Route.IsKeyPath get.request.path := by decide +kernel
  have hstatus : routeOf status.request = .status := by decide +kernel
  exact ⟨hpoisoned, hrefused, (refused_changes_nothing ⟨node, .new⟩ join).1 hrefused, hkey, rfl,
    (refused_changes_nothing ⟨node, .new⟩ get).2.1 hkey rfl, hstatus,
    (refused_changes_nothing ⟨node, .new⟩ status).2.2.1 hstatus⟩

end FrontDoor.Door
