import FrontDoor.Proofs.Door.Calls
import FrontDoor.Proofs.Door.Contents
import FrontDoor.Proofs.Json.Acceptance
import FrontDoor.Store.Scripted

/-!
# Writing the entries of a body

`Store.Stores` says that some entries were set one after the other and none was refused, and
`Store.Refuses` that an entry was refused when those before it had been stored. To set all entries
of a list is one or the other (`setAll_cases`), and the calls are the entries up to the refused one.
A body holds every name once, so that a node in memory ends with the same data in whatever order its
entries are taken (`visit_of_post`).
-/

namespace FrontDoor

namespace Store

variable {σ : Type} (s : Store σ)

/-- From one state to another by setting some entries, none of which is refused. -/
inductive Stores : σ → List (String × String) → σ → Prop where
  | nil {st : σ} : Stores st [] st
  | cons {st st₁ st' : σ} {key value : String} {rest : List (String × String)} :
      s.set st key value = (.ok (), st₁) → Stores st₁ rest st' →
      Stores st ((key, value) :: rest) st'

/-- From one state to another by storing some entries and then trying one that is refused. -/
inductive Refuses (st : σ) (front : List (String × String)) (e : String × String) (st' : σ) : Prop
  where
  | mk {st₁ : σ} {reason : StoreError} : s.Stores st front st₁ →
      s.set st₁ e.1 e.2 = (.error reason, st') → Refuses st front e st'

/-- The call that sets an entry. -/
def setCall (e : String × String) : Call := .set e.1 e.2

theorem set_logged (st : σ) (log : List Call) (key value : String) :
    s.logged.set (st, log) key value =
      ((s.set st key value).1, ((s.set st key value).2, .set key value :: log)) := rfl

variable {s}

/-- The calls that store some entries are written down, the latest first. -/
theorem Stores.logged {st st' : σ} {l : List (String × String)} (h : s.Stores st l st')
    (log : List Call) : s.logged.Stores (st, log) l (st', (l.map setCall).reverse ++ log) := by
  induction h generalizing log with
  | nil => exact .nil
  | @cons st st₁ st' key value rest hset _ ih =>
    have hlogged : s.logged.set (st, log) key value = (.ok (), (st₁, .set key value :: log)) := by
      rw [set_logged, hset]
    refine .cons hlogged ?_
    rw [List.map_cons, List.reverse_cons, List.append_assoc]
    exact ih _

theorem Refuses.logged {st st' : σ} {front : List (String × String)} {e : String × String}
    (h : s.Refuses st front e st') (log : List Call) :
    s.logged.Refuses (st, log) front e
      (st', ((front ++ [e]).map setCall).reverse ++ log) := by
  obtain @⟨st₁, reason, hfront, hset⟩ := h
  have hlast : s.logged.set (st₁, (front.map setCall).reverse ++ log) e.1 e.2 =
      (.error reason, (st', ((front ++ [e]).map setCall).reverse ++ log)) := by
    rw [set_logged, hset, List.map_append, List.reverse_append]
    rfl
  exact .mk (hfront.logged log) hlast

end Store

namespace Door

open Store (setCall)

variable {σ : Type} {s : Store σ} {st st' : σ} {l : List (String × String)}

/-! ## Setting a list of entries -/

/-- To set a list of entries is to store it, or to stop at the first that is refused. -/
theorem setAll_cases (s : Store σ) (st : σ) (l : List (String × String)) :
    (∃ st', setAll s st l = (true, st') ∧ s.Stores st l st') ∨
      ∃ st' front e back, setAll s st l = (false, st') ∧ l = front ++ e :: back ∧
        s.Refuses st front e st' := by
  induction l generalizing st with
  | nil => exact .inl ⟨st, rfl, .nil⟩
  | cons e rest ih =>
    obtain ⟨key, value⟩ := e
    rw [setAll]
    rcases hset : s.set st key value with ⟨reason | ⟨⟩, st₁⟩
    · exact .inr ⟨st₁, [], (key, value), rest, rfl, rfl, .mk .nil hset⟩
    · rcases ih st₁ with ⟨st', hall, hstores⟩ | ⟨st', front, e, back, hall, rfl, hfront, hlast⟩
      · exact .inl ⟨st', hall, .cons hset hstores⟩
      · exact .inr ⟨st', (key, value) :: front, e, back, hall, rfl, .mk (.cons hset hfront) hlast⟩

theorem setAll_of_stores (h : s.Stores st l st') : setAll s st l = (true, st') := by
  induction h with
  | nil => rfl
  | cons hset _ ih =>
    rw [setAll, hset]
    exact ih

theorem setAll_of_refuses {front back : List (String × String)} {e : String × String}
    (h : s.Refuses st front e st') : setAll s st (front ++ e :: back) = (false, st') := by
  obtain @⟨st₁, reason, hfront, hset⟩ := h
  induction hfront with
  | nil => rw [List.nil_append, setAll, hset]
  | cons hset' _ ih =>
    rw [List.cons_append, setAll, hset']
    exact ih hset

theorem setAll_eq_true_iff : setAll s st l = (true, st') ↔ s.Stores st l st' := by
  refine ⟨fun h => ?_, setAll_of_stores⟩
  rcases setAll_cases s st l with ⟨st'', hall, hstores⟩ | ⟨st'', front, e, back, hall, -, -⟩
  · rw [h] at hall
    obtain rfl := (Prod.mk.inj hall).2
    exact hstores
  · rw [h] at hall
    cases (Prod.mk.inj hall).1

/-- A node stores any entries. -/
theorem stores_insertAll (node : MemoryStore) (l : List (String × String)) :
    MemoryStore.store.Stores node l { node with data := node.data.insertAll l } :=
  setAll_eq_true_iff.mp (node.setAll_store l)

/-! ## A visit that posts a body -/

/-- Any arrangement of a map is the one of some order. -/
theorem exists_order (m : StringMap) {l : List (String × String)} (h : l.Perm m.toList) :
    ∃ order : EntryOrder, order.arrange m = l := by
  refine ⟨⟨fun m' => if m' = m then l else m'.toList, fun m' => ?_⟩, if_pos rfl⟩
  split
  · next hm => exact hm ▸ h
  · exact .rfl

/-- The calls of a visit about keys are those that bring its outcome about. -/
theorem calls_eq_outcome {door : Door σ} {v : Visit} (hkey : Route.IsKeyPath v.request.path) :
    calls s door v = (outcome s.logged ⟨(door.store, []), door.metrics⟩ v).store.2 :=
  calls_eq_log hkey

/-- A visit that brings no document to light is answered with a status alone. -/
theorem visit_of_no_document {door : Door σ} {v : Visit}
    (hkey : Route.IsKeyPath v.request.path) (hnone : (outcome s door v).document = none) :
    (visit s door v).1 =
      (Response.empty ((outcome s door v).failures.head?.getD statusOk)).withLength := by
  rw [outcome] at hnone
  rw [visit, serve_of_key s v.order door v.request v.elapsed hkey, outcome]
  simp only [handleKey, Recorder.failAll_start, hnone]
  rfl

section Post

variable {door : Door σ} {v : Visit} (hpost : v.request.method.name = "POST")
include hpost

theorem outcome_of_unreadable (hbody : StringMap.read? v.request.body = none) :
    outcome s door v = ⟨[badRequest], none, door.store⟩ := by
  rw [outcome, keyOutcome_of_post hpost, writeKeys, hbody]

theorem outcome_of_stores {m : StringMap} (hbody : StringMap.read? v.request.body = some m)
    (h : s.Stores door.store (v.order.arrange m) st') : outcome s door v = ⟨[], none, st'⟩ := by
  rw [outcome, keyOutcome_of_post hpost, writeKeys, hbody]
  dsimp only
  rw [setAll_of_stores h]
  rfl

theorem outcome_of_refuses {m : StringMap} (hbody : StringMap.read? v.request.body = some m)
    {front back : List (String × String)} {e : String × String}
    (hentries : v.order.arrange m = front ++ e :: back) (h : s.Refuses door.store front e st') :
    outcome s door v = ⟨[internalError], none, st'⟩ := by
  rw [outcome, keyOutcome_of_post hpost, writeKeys, hbody]
  dsimp only
  rw [hentries, setAll_of_refuses h]
  rfl

variable (hkey : Route.IsKeyPath v.request.path)
include hkey

theorem calls_of_unreadable (hbody : StringMap.read? v.request.body = none) :
    calls s door v = [] := by
  rw [calls_eq_outcome hkey, outcome_of_unreadable hpost hbody]

theorem calls_of_stores {m : StringMap} (hbody : StringMap.read? v.request.body = some m)
    (h : s.Stores door.store (v.order.arrange m) st') :
    calls s door v = ((v.order.arrange m).map setCall).reverse := by
  rw [calls_eq_outcome hkey, outcome_of_stores hpost hbody (h.logged []), List.append_nil]

theorem calls_of_refuses {m : StringMap} (hbody : StringMap.read? v.request.body = some m)
    {front back : List (String × String)} {e : String × String}
    (hentries : v.order.arrange m = front ++ e :: back) (h : s.Refuses door.store front e st') :
    calls s door v = ((front ++ [e]).map setCall).reverse := by
  rw [calls_eq_outcome hkey, outcome_of_refuses hpost hbody hentries (h.logged []),
    List.append_nil]

/-- The path of a POST is no matter, as long as it is about keys. -/
theorem visit_of_post_path {path : Bytes} (hpath : Route.IsKeyPath path) :
    visit s door { v with request.path := path } = visit s door v := by
  have houtcome : outcome s door { v with request.path := path } = outcome s door v := by
    rw [outcome, outcome, keyOutcome_of_post hpost, keyOutcome_of_post hpost]
  rw [outcome, outcome] at houtcome
  rw [visit, visit, serve_of_key s v.order door _ v.elapsed hpath,
    serve_of_key s v.order door v.request v.elapsed hkey]
  simp only [handleKey, houtcome]

end Post

/-- In front of a node the order of the entries leaves no trace. -/
theorem visit_of_post (door : Door MemoryStore) {v : Visit} {m : StringMap}
    (hpost : v.request.method.name = "POST") (hkey : Route.IsKeyPath v.request.path)
    (hbody : StringMap.read? v.request.body = some m) :
    (visit MemoryStore.store door v).1 = (Response.empty statusOk).withLength ∧
      (visit MemoryStore.store door v).2.store =
        { door.store with data := door.store.data.insertAll m.toList } := by
  have houtcome := outcome_of_stores hpost hbody
    (stores_insertAll door.store (v.order.arrange m))
  have hnone : (outcome MemoryStore.store door v).document = none := by rw [houtcome]
  rw [Dictionary.insertAll_perm (v.order.perm m)] at houtcome
  rw [visit_of_no_document hkey hnone, visit_store _ _ hkey, houtcome]
  exact ⟨rfl, rfl⟩

/-- How a POST of a map ends: every entry is stored in the order in which they are taken, or one is
refused when those before it have been stored, and it is the last that was asked for. -/
inductive PostEnds (s : Store σ) (door : Door σ) (v : Visit) (entries : List (String × String)) :
    Prop where
  | stored : (visit s door v).1.status = 200 → (calls s door v).reverse = entries.map setCall →
      s.Stores door.store entries (visit s door v).2.store → PostEnds s door v entries
  | refused {front back : List (String × String)} {e : String × String} :
      entries = front ++ e :: back → (visit s door v).1.status = 500 →
      (calls s door v).reverse = (front ++ [e]).map setCall →
      s.Refuses door.store front e (visit s door v).2.store → PostEnds s door v entries

theorem postEnds (s : Store σ) (door : Door σ) {v : Visit} {m : StringMap}
    (hpost : v.request.method.name = "POST") (hkey : Route.IsKeyPath v.request.path)
    (hbody : StringMap.read? v.request.body = some m) :
    PostEnds s door v (v.order.arrange m) := by
  rcases setAll_cases s door.store (v.order.arrange m) with
    ⟨st', -, hstores⟩ | ⟨st', front, e, back, -, hentries, hrefuses⟩
  · have houtcome := outcome_of_stores hpost hbody hstores
    refine .stored ?_ ?_ ?_
    · rw [visit_status s door hkey, houtcome]
      rfl
    · rw [calls_of_stores hpost hkey hbody hstores, List.reverse_reverse]
    · rw [visit_store s door hkey, houtcome]
      exact hstores
  · have houtcome := outcome_of_refuses hpost hbody hentries hrefuses
    refine .refused hentries ?_ ?_ ?_
    · rw [visit_status s door hkey, houtcome]
      rfl
    · rw [calls_of_refuses hpost hkey hbody hentries hrefuses, List.reverse_reverse]
    · rw [visit_store s door hkey, houtcome]
      exact hrefuses

/-- **A body is written name by name, up to the first refusal.** Take a POST about keys, over any
store and whatever else its path says. A body that cannot be read is answered with 400, and nothing
is asked of the store. Of one that is read as a map, every name is taken once, with the value of its
last member, in an order that can be any; the calls are the entries in this order, up to and with
the first that is refused, and the answer is 200 if none is and 500 otherwise. A node in memory
answers 200 and ends with the map over its old data, whatever the order. -/
theorem post_up_to_refusal (v : Visit) (hkey : Route.IsKeyPath v.request.path)
    (hpost : v.request.method.name = "POST") :
    (∀ (σ : Type) (s : Store σ) (door : Door σ) (path : Bytes), Route.IsKeyPath path →
      visit s door { v with request.path := path } = visit s door v) ∧
    (StringMap.read? v.request.body = none →
      ∀ (σ : Type) (s : Store σ) (door : Door σ), calls s door v = [] ∧
        (visit s door v).1.status = 400 ∧ (visit s door v).2.store = door.store) ∧
    ∀ m, StringMap.read? v.request.body = some m →
      (∃ w x t, v.request.body = w ++ x ++ t ∧ Json.Blanks w ∧ Json.MapText x m) ∧
      (((v.order.arrange m).map Prod.fst).Nodup ∧
        ∀ key value, (key, value) ∈ v.order.arrange m ↔ m.get? key = some value) ∧
      (∀ l, l.Perm m.toList → ∃ order : EntryOrder, order.arrange m = l) ∧
      (∀ (σ : Type) (s : Store σ) (door : Door σ), PostEnds s door v (v.order.arrange m)) ∧
      ∀ door : Door MemoryStore, ∃ data : Dictionary String,
        (∀ k, data.get? k = (m.get? k).or (door.store.data.get? k)) ∧
        ∀ order elapsed,
          (visit MemoryStore.store door ⟨v.request, order, elapsed⟩).1 =
            (Response.empty 200).withLength ∧
          (visit MemoryStore.store door ⟨v.request, order, elapsed⟩).2.store =
            { door.store with data := data } := by
  refine ⟨fun σ s door path hpath => visit_of_post_path hpost hkey hpath, ?_, ?_⟩
  · intro hbody σ s door
    refine ⟨calls_of_unreadable hpost hkey hbody, ?_, ?_⟩
    · rw [visit_status s door hkey, outcome_of_unreadable hpost hbody]
      rfl
    · rw [visit_store s door hkey, outcome_of_unreadable hpost hbody]
  · intro m hbody
    have hperm := v.order.perm m
    refine ⟨Json.read?_eq_some_iff.mp hbody, ⟨?_, fun key value => ?_⟩, fun l => exists_order m,
      fun σ s door => postEnds s door hpost hkey hbody, fun door => ?_⟩
    · exact (hperm.map Prod.fst).nodup_iff.mpr m.nodup_names
    · rw [hperm.mem_iff, Dictionary.mem_toList_iff]
    · refine ⟨door.store.data.insertAll m.toList, fun k => ?_, fun order elapsed => ?_⟩
      · exact Dictionary.get?_insertAll_perm .rfl door.store.data k
      · exact visit_of_post door (v := ⟨v.request, order, elapsed⟩) hpost hkey hbody

/-- A store that refuses one key: the entry before it is stored, the one behind it is not asked for,
and of the name that comes twice the last value counts. -/
theorem post_up_to_refused_key :
    let v := Visit.ofTexts .post "/keys" "\x7b\"c\":\"3\",\"b\":\"x\",\"a\":\"1\",\"b\":\"2\"\x7d."
    let store := ScriptedStore.new "" [] ⟨false, false, false, false, some "b"⟩
    let door : Door ScriptedStore := ⟨store, .new⟩
    Route.IsKeyPath v.request.path ∧ v.request.method.name = "POST" ∧
      StringMap.read? v.request.body = some (.ofList [("a", "1"), ("b", "2"), ("c", "3")]) ∧
      (visit ScriptedStore.store door v).1.status = 500 ∧
      calls ScriptedStore.store door v = [.set "b" "2", .set "a" "1"] ∧
      PostEnds ScriptedStore.store door v [("a", "1"), ("b", "2"), ("c", "3")] := by
  intro v store door
  have hkey : Route.IsKeyPath v.request.path := by decide +kernel
  have hbody : StringMap.read? v.request.body =
      some (.ofList [("a", "1"), ("b", "2"), ("c", "3")]) := by decide +kernel
  obtain ⟨-, -, hpost⟩ := post_up_to_refusal v hkey rfl
  obtain ⟨-, -, -, hends, -⟩ := hpost _ hbody
  exact ⟨hkey, rfl, hbody, by decide +kernel, by decide +kernel, hends _ ScriptedStore.store door⟩

end Door

end FrontDoor
