import FrontDoor.Proofs.Dictionary
import FrontDoor.Proofs.Door.Run

/-!
# What a visit asks of the store

The calls of a visit are read off a store that writes them down. A visit about keys reads or removes
the key of its path, or sets entries of its body (`mem_calls_of_key`); no path is ever set, and no
name in a body is ever read or removed.
-/

namespace FrontDoor.Door

variable {σ : Type} (s : Store σ) (door : Door σ) (v : Visit)

/-- The calls that a visit makes, the latest first. -/
def calls : List Call := (visit s.logged ⟨(door.store, []), door.metrics⟩ v).2.store.2

variable {s door v}

/-! ## The endpoints -/

theorem log_readKey (st : σ × List Call) (key : String) :
    (readKey s.logged st key).store.2 = .get key :: st.2 := by
  rw [readKey_store]
  rfl

theorem log_removeKey (st : σ × List Call) (key : String) :
    (removeKey s.logged st key).store.2 = if key = "" then st.2 else .delete key :: st.2 := by
  rw [removeKey_store]
  split <;> rfl

/-- A call that sets an entry of a body. -/
def EntryOf (body : Bytes) (c : Call) : Prop :=
  ∃ m key value, StringMap.read? body = some m ∧ m.get? key = some value ∧ c = .set key value

theorem mem_log_setAll {c : Call} (st : σ × List Call) (l : List (String × String))
    (h : c ∈ (setAll s.logged st l).2.2) :
    c ∈ st.2 ∨ ∃ e ∈ l, c = .set e.1 e.2 := by
  induction l generalizing st with
  | nil => exact .inl h
  | cons e rest ih =>
    have hlog : c ∈ Call.set e.1 e.2 :: st.2 → c ∈ st.2 ∨ ∃ e' ∈ e :: rest, c = .set e'.1 e'.2 := by
      intro hc
      rcases List.mem_cons.mp hc with rfl | hc
      · exact .inr ⟨e, List.mem_cons_self, rfl⟩
      · exact .inl hc
    -- The call is written down whether it fails or not; only a success goes on.
    obtain ⟨key, value⟩ := e
    rw [setAll_cons] at h
    split at h
    · rcases ih _ h with hc | ⟨e', he', rfl⟩
      · exact hlog hc
      · exact .inr ⟨e', List.mem_cons_of_mem _ he', rfl⟩
    · exact hlog h

theorem mem_log_writeKeys {c : Call} {order : EntryOrder} {st : σ × List Call} {body : Bytes}
    (h : c ∈ (writeKeys s.logged order st body).store.2) : c ∈ st.2 ∨ EntryOf body c := by
  unfold writeKeys at h
  split at h
  · exact .inl h
  · next m hm =>
    refine (mem_log_setAll st _ h).imp_right ?_
    rintro ⟨⟨key, value⟩, he, rfl⟩
    have hmem : (key, value) ∈ m.toList := (order.perm m).mem_iff.mp he
    exact ⟨m, key, value, hm, Dictionary.mem_toList_iff.mp hmem, rfl⟩

theorem mem_log_handleJoin {c : Call} {door : Door (σ × List Call)} {body : Bytes}
    (h : c ∈ (handleJoin s.logged door body).2.store.2) :
    c ∈ door.store.2 ∨ ∃ nodeId addr, c = .join nodeId addr := by
  rw [handleJoin_eq] at h
  split at h
  · exact .inl h
  · next fields _ =>
    rcases List.mem_cons.mp h with rfl | h
    · exact .inr ⟨_, _, rfl⟩
    · exact .inl h

/-! ## One visit -/

theorem mem_calls_of_not_key (hkey : ¬Route.IsKeyPath v.request.path) {c : Call}
    (h : c ∈ calls s door v) : c = .status ∨ ∃ nodeId addr, c = .join nodeId addr := by
  rw [calls, visit] at h
  rcases serve_of_not_key s.logged v.order ⟨(door.store, []), door.metrics⟩ v.request v.elapsed hkey
    with hjoin | hstatus | hnothing
  · rw [hjoin] at h
    exact .inr ((mem_log_handleJoin h).resolve_left List.not_mem_nil)
  · rw [hstatus] at h
    exact .inl (List.mem_singleton.mp h)
  · rw [hnothing] at h
    exact absurd h List.not_mem_nil

section Key

variable (hkey : Route.IsKeyPath v.request.path)
include hkey

theorem calls_eq_log : calls s door v =
    (keyOutcome s.logged v.order (door.store, []) v.request.method (keyOf v.request)
      v.request.body).store.2 := by
  rw [calls, visit_store _ _ hkey]
  rfl

theorem calls_of_get (h : v.request.method.name = "GET") :
    calls s door v = [.get (keyOf v.request)] := by
  rw [calls_eq_log hkey, keyOutcome_of_get h, log_readKey]

theorem calls_of_delete (h : v.request.method.name = "DELETE") :
    calls s door v = if keyOf v.request = "" then [] else [.delete (keyOf v.request)] := by
  rw [calls_eq_log hkey, keyOutcome_of_delete h, log_removeKey]

/-- What a visit about keys can ask for. -/
theorem mem_calls_of_key {c : Call} (h : c ∈ calls s door v) :
    (v.request.method.name = "GET" ∧ c = .get (keyOf v.request)) ∨
      (v.request.method.name = "DELETE" ∧ keyOf v.request ≠ "" ∧
        c = .delete (keyOf v.request)) ∨
      EntryOf v.request.body c := by
  by_cases hget : v.request.method.name = "GET"
  · rw [calls_of_get hkey hget, List.mem_singleton] at h
    exact .inl ⟨hget, h⟩
  by_cases hdelete : v.request.method.name = "DELETE"
  · rw [calls_of_delete hkey hdelete] at h
    split at h
    · exact absurd h List.not_mem_nil
    · next hne => exact .inr (.inl ⟨hdelete, hne, List.mem_singleton.mp h⟩)
  by_cases hpost : v.request.method.name = "POST"
  · rw [calls_eq_log hkey, keyOutcome_of_post hpost] at h
    exact .inr (.inr ((mem_log_writeKeys h).resolve_left List.not_mem_nil))
  · rw [calls_eq_log hkey, keyOutcome_of_other hget hpost hdelete] at h
    exact absurd h List.not_mem_nil

end Key

/-- Only a GET about keys reads, and it reads the key of its path, which may be empty. -/
theorem get_mem_calls_iff {key : String} :
    Call.get key ∈ calls s door v ↔
      Route.IsKeyPath v.request.path ∧ v.request.method.name = "GET" ∧ key = keyOf v.request := by
  constructor
  · intro h
    by_cases hkey : Route.IsKeyPath v.request.path
    · rcases mem_calls_of_key hkey h with ⟨hget, h⟩ | ⟨-, -, h⟩ | ⟨_, _, _, -, -, h⟩
      · exact ⟨hkey, hget, Call.get.inj h⟩
      · cases h
      · cases h
    · rcases mem_calls_of_not_key hkey h with h | ⟨_, _, h⟩ <;> cases h
  · rintro ⟨hkey, hget, rfl⟩
    rw [calls_of_get hkey hget]
    exact List.mem_singleton_self _

/-- Only a DELETE about keys removes, and it removes the key of its path if there is one. -/
theorem delete_mem_calls_iff {key : String} :
    Call.delete key ∈ calls s door v ↔
      Route.IsKeyPath v.request.path ∧ v.request.method.name = "DELETE" ∧
        key = keyOf v.request ∧ key ≠ "" := by
  constructor
  · intro h
    by_cases hkey : Route.IsKeyPath v.request.path
    · rcases mem_calls_of_key hkey h with ⟨-, h⟩ | ⟨hdelete, hne, h⟩ | ⟨_, _, _, -, -, h⟩
      · cases h
      · obtain rfl := Call.delete.inj h
        exact ⟨hkey, hdelete, rfl, hne⟩
      · cases h
    · rcases mem_calls_of_not_key hkey h with h | ⟨_, _, h⟩ <;> cases h
  · rintro ⟨hkey, hdelete, rfl, hne⟩
    rw [calls_of_delete hkey hdelete, if_neg hne]
    exact List.mem_singleton_self _

end FrontDoor.Door
