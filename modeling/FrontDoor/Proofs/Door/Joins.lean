import FrontDoor.Proofs.Door.Calls
import FrontDoor.Proofs.Json.Acceptance
import FrontDoor.Store.Memory

/-!
# Who asks to join

A join counts the entries of the map that its body gives, and not the members of its text, so names
may come twice and in any order. What is counted and looked up then is that the names of the map are
`id` and `addr` and no others (`joinFields?_eq_some_iff`). A body that says so is a call of the
store, with the two values in their places, and every other body is refused without one
(`join_answer`).
-/

namespace FrontDoor.Door

open Json (Blanks MapText)

/-- A map with an id and an address under their names, and with no other names. -/
structure IsJoin (m : StringMap) (nodeId addr : String) : Prop where
  names : {k | (m.get? k).isSome} = {"id", "addr"}
  nodeId : m.get? "id" = some nodeId
  addr : m.get? "addr" = some addr

/-- A body that asks to admit a node: white space, a text of a map that does, and anything more. -/
def AsksToJoin (body : Bytes) (nodeId addr : String) : Prop :=
  ∃ w x t m, body = w ++ x ++ t ∧ Blanks w ∧ MapText x m ∧ IsJoin m nodeId addr

/-! ## The two fields -/

/-- With both names there, the size tells whether there are others. -/
theorem size_eq_two_iff {m : StringMap} {nodeId addr : String} (hid : m.get? "id" = some nodeId)
    (haddr : m.get? "addr" = some addr) :
    m.size = 2 ↔ {k | (m.get? k).isSome} = {"id", "addr"} := by
  have hpair : ({"id", "addr"} : Set String).encard = 2 := Set.encard_pair (by decide)
  have hsub : ({"id", "addr"} : Set String) ⊆ {k | (m.get? k).isSome} := by
    rintro k (rfl | rfl)
    · simp [hid]
    · simp [haddr]
  rw [← Nat.cast_inj (R := ℕ∞), Dictionary.size_eq_encard]
  constructor
  · intro h
    have hle := (h.trans hpair.symm).le
    exact ((Set.toFinite _).eq_of_subset_of_encard_le hsub hle).symm
  · intro h
    rw [h]
    exact hpair

theorem joinFields?_eq_some_iff {m : StringMap} {nodeId addr : String} :
    joinFields? m = some (nodeId, addr) ↔ IsJoin m nodeId addr := by
  unfold joinFields?
  constructor
  · intro h
    split at h
    · next hsize =>
      split at h
      · next hid haddr =>
        cases h
        exact ⟨(size_eq_two_iff hid haddr).mp hsize, hid, haddr⟩
      · cases h
    · cases h
  · rintro ⟨hnames, hid, haddr⟩
    rw [if_pos ((size_eq_two_iff hid haddr).mpr hnames), hid, haddr]

theorem asksToJoin_iff {body : Bytes} {nodeId addr : String} :
    AsksToJoin body nodeId addr ↔
      (StringMap.read? body).bind joinFields? = some (nodeId, addr) := by
  simp only [Option.bind_eq_some_iff, joinFields?_eq_some_iff, Json.read?_eq_some_iff, AsksToJoin]
  constructor
  · rintro ⟨w, x, t, m, hbody, hw, hx, hm⟩
    exact ⟨m, ⟨w, x, t, hbody, hw, hx⟩, hm⟩
  · rintro ⟨m, ⟨w, x, t, hbody, hw, hx⟩, hm⟩
    exact ⟨w, x, t, m, hbody, hw, hx, hm⟩

/-! ## The endpoint -/

variable {σ : Type} {s : Store σ} {door : Door σ} {body : Bytes} {nodeId addr : String}

theorem handleJoin_of_asked (h : AsksToJoin body nodeId addr) :
    handleJoin s door body =
      (.empty (if (s.join door.store nodeId addr).1.isOk then statusOk else internalError),
        { door with store := (s.join door.store nodeId addr).2 }) := by
  rw [handleJoin_eq, asksToJoin_iff.mp h]

theorem handleJoin_of_not_asked (h : ¬∃ nodeId addr, AsksToJoin body nodeId addr) :
    handleJoin s door body = (.empty badRequest, door) := by
  have hnone : (StringMap.read? body).bind joinFields? = none := by
    rw [Option.eq_none_iff_forall_ne_some]
    exact fun fields hfields => h ⟨fields.1, fields.2, asksToJoin_iff.mpr hfields⟩
  rw [handleJoin_eq, hnone]

theorem body_handleJoin : (handleJoin s door body).1.body = [] := by
  rw [handleJoin_eq]
  split <;> rfl

/-! ## A visit -/

variable {v : Visit} (hroute : routeOf v.request = .join)
include hroute

theorem visit_of_join :
    visit s door v =
      ((handleJoin s door v.request.body).1.withLength, (handleJoin s door v.request.body).2) := by
  rw [visit, serve_eq, hroute]
  rfl

theorem calls_of_asked (h : AsksToJoin v.request.body nodeId addr) :
    calls s door v = [.join nodeId addr] := by
  rw [calls, visit_of_join hroute, handleJoin_of_asked h]
  rfl

theorem calls_of_not_asked (h : ¬∃ nodeId addr, AsksToJoin v.request.body nodeId addr) :
    calls s door v = [] := by
  rw [calls, visit_of_join hroute, handleJoin_of_not_asked h]

theorem join_mem_calls_iff :
    Call.join nodeId addr ∈ calls s door v ↔ AsksToJoin v.request.body nodeId addr := by
  constructor
  · intro h
    by_cases hasked : ∃ nodeId addr, AsksToJoin v.request.body nodeId addr
    · obtain ⟨nodeId', addr', hasked⟩ := hasked
      rw [calls_of_asked hroute hasked, List.mem_singleton] at h
      cases h
      exact hasked
    · rw [calls_of_not_asked hroute hasked] at h
      exact absurd h List.not_mem_nil
  · intro h
    rw [calls_of_asked hroute h]
    exact List.mem_singleton_self _

omit hroute

/-- What shows of a visit to the join endpoint. -/
structure JoinAnswer (s : Store σ) (door : Door σ) (v : Visit) : Prop where
  /-- The store is asked to admit a node when the body asks for it. -/
  asked : ∀ nodeId addr, Call.join nodeId addr ∈ calls s door v ↔
    AsksToJoin v.request.body nodeId addr
  /-- It is asked once and for nothing else, and its answer decides the status. -/
  answered : ∀ nodeId addr, AsksToJoin v.request.body nodeId addr →
    calls s door v = [.join nodeId addr] ∧
      (visit s door v).2.store = (s.join door.store nodeId addr).2 ∧
      ((s.join door.store nodeId addr).1 = .ok () → (visit s door v).1.status = 200) ∧
      ∀ e, (s.join door.store nodeId addr).1 = .error e → (visit s door v).1.status = 500
  /-- Without being asked for it, nothing reaches the store. -/
  refused : (¬∃ nodeId addr, AsksToJoin v.request.body nodeId addr) →
    calls s door v = [] ∧ (visit s door v).2.store = door.store ∧ (visit s door v).1.status = 400
  body : (visit s door v).1.body = []
  metrics : (visit s door v).2.metrics = door.metrics
  method : ∀ method, visit s door { v with request.method := method } = visit s door v

/-- **Exactly the two fields ask to join.** Over any store, a visit to the join endpoint asks the
store to admit a node when its body gives a map whose names are `id` and `addr` and no others,
whatever else the text around it says; it asks once, with the id and the address in their places,
and the status tells whether the store agreed. Every other body is refused and does not reach the
store. The response has no body, the method does not matter and nothing is recorded. -/
theorem join_answer (s : Store σ) (door : Door σ) (v : Visit) (hroute : routeOf v.request = .join) :
    JoinAnswer s door v := by
  constructor
  case asked => exact fun nodeId addr => join_mem_calls_iff hroute
  case answered =>
    intro nodeId addr h
    rw [visit_of_join hroute, handleJoin_of_asked h]
    refine ⟨calls_of_asked hroute h, rfl, fun hok => ?_, fun e herror => ?_⟩
    · rw [hok]
      rfl
    · rw [herror]
      rfl
  case refused =>
    intro h
    rw [visit_of_join hroute, handleJoin_of_not_asked h]
    exact ⟨calls_of_not_asked hroute h, rfl, rfl⟩
  case body =>
    rw [visit_of_join hroute]
    exact body_handleJoin
  case metrics =>
    rw [visit_of_join hroute]
    exact handleJoin_metrics s door v.request.body
  case method =>
    intro method
    rw [visit_of_join hroute]
    exact visit_of_join (v := { v with request.method := method }) hroute

/-- The address comes first, the id comes twice, once with an escape in its name, and something that
is no JSON follows. -/
theorem join_answer_with_repeated_id :
    let node := MemoryStore.new "n" "h:1"
    let join := Visit.ofTexts .delete "/%6Aoin"
      " \x7b\"addr\":\"h:2\",\"id\":\"m\", \"\\u0069d\":\"n2\"\x7d,\x7d"
    routeOf join.request = .join ∧ AsksToJoin join.request.body "n2" "h:2" ∧
      calls MemoryStore.store ⟨node, .new⟩ join = [.join "n2" "h:2"] ∧
      (visit MemoryStore.store ⟨node, .new⟩ join).1.status = 200 := by
  intro node join
  have hroute : routeOf join.request = .join := by decide +kernel
  have hasked : AsksToJoin join.request.body "n2" "h:2" :=
    asksToJoin_iff.mpr (by decide +kernel)
  obtain ⟨hcalls, -, hstatus, -⟩ :=
    (join_answer MemoryStore.store ⟨node, .new⟩ join hroute).answered "n2" "h:2" hasked
  exact ⟨hroute, hasked, hcalls, hstatus (by decide +kernel)⟩

end FrontDoor.Door
