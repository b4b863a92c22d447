import FrontDoor.Proofs.Dictionary
import FrontDoor.Proofs.Door.Run
import FrontDoor.Store.Memory

/-!
# What a node holds after a run

`Contents` says which keys have which values, and `Contents.after` what one request does to that,
read off the request alone. A visit to a door in front of a node does exactly this (`held_visit`),
so a run does it request by request (`held_after`), and whoever reads a key is answered with the
value that the run left there.
-/

namespace FrontDoor

/-- The values of the keys that have one. -/
abbrev Contents := String → Option String

namespace Contents

/-- No key has a value. -/
def empty : Contents := fun _ => none

/-- The entries of a body take the place of the values under their names. -/
def override (c : Contents) (entries : StringMap) : Contents := fun k => (entries.get? k).or (c k)

/-- A key loses its value. -/
def remove (c : Contents) (key : String) : Contents := fun k => if k = key then none else c k

/-- The keys that have a value. -/
def keys (c : Contents) : Set String := {k | (c k).isSome}

/-- What a request does to the values. Only requests about keys matter: a POST whose body is a
string map, whatever its path says behind the prefix, and a DELETE whose path is UTF-8 and carries a
key. -/
def after (c : Contents) (r : Request) : Contents :=
  let path := Percent.decode r.path
  if Route.IsKeyPath r.path then
    if r.method.name = "POST" then
      match StringMap.read? r.body with
      | some entries => c.override entries
      | none => c
    else if r.method.name = "DELETE" then
      let key := Route.keyOfPath (Utf8.lossy path)
      if Utf8.valid path ∧ key ≠ [] then c.remove (String.ofList key) else c
    else c
  else c

/-- The values after some requests, when there were none before. -/
def ofRequests (rs : List Request) : Contents := rs.foldl after empty

end Contents

namespace MemoryStore

/-- The values that a node holds. -/
def held (st : MemoryStore) : Contents := st.data.get?

theorem len_eq_encard (st : MemoryStore) : (st.len : ℕ∞) = st.held.keys.encard :=
  st.data.size_eq_encard

theorem held_delete (st : MemoryStore) (key : String) :
    (st.delete key).held = st.held.remove key :=
  funext fun k => Dictionary.get?_erase st.data key k

/-- A join leaves the values alone. -/
theorem data_join (st : MemoryStore) (nodeId addr : String) :
    (st.join nodeId addr).2.data = st.data := by
  unfold join
  split
  · rfl
  · split
    · rfl
    · dsimp only; split <;> rfl

/-- Setting entries cannot fail here, and puts them into the data one after the other. -/
theorem setAll_store (st : MemoryStore) (l : List (String × String)) :
    Door.setAll store st l = (true, { st with data := st.data.insertAll l }) := by
  induction l generalizing st with
  | nil => rfl
  | cons e rest ih =>
    obtain ⟨key, value⟩ := e
    show Door.setAll store (st.set key value) rest = _
    rw [ih]
    rfl

end MemoryStore

namespace Door

open MemoryStore (held)

/-! ## One visit -/

theorem held_writeKeys (order : EntryOrder) (st : MemoryStore) (body : Bytes) :
    (writeKeys MemoryStore.store order st body).store.held =
      match StringMap.read? body with
      | some entries => st.held.override entries
      | none => st.held := by
  unfold writeKeys
  cases StringMap.read? body with
  | none => rfl
  | some entries =>
    simp only [MemoryStore.setAll_store]
    exact funext fun k => Dictionary.get?_insertAll_perm (order.perm entries) st.data k

theorem held_removeKey (st : MemoryStore) (key : String) :
    (removeKey MemoryStore.store st key).store.held =
      if key = "" then st.held else st.held.remove key := by
  unfold removeKey
  split
  · rfl
  · exact MemoryStore.held_delete st key

theorem held_handleJoin (door : Door MemoryStore) (body : Bytes) :
    (handleJoin MemoryStore.store door body).2.store.held = door.store.held := by
  rw [handleJoin_eq]
  split
  · rfl
  · next fields _ => exact congrArg Dictionary.get? (door.store.data_join fields.1 fields.2)

theorem keyOf_eq_empty_iff {r : Request} :
    keyOf r = "" ↔ ¬(Utf8.valid (Percent.decode r.path) = true ∧
      Route.keyOfPath (Utf8.lossy (Percent.decode r.path)) ≠ []) := by
  rw [keyOf, ← String.ofList_nil, String.ofList_inj, Route.keyOf, Route.readPath_eq]
  by_cases hvalid : Utf8.valid (Percent.decode r.path) = true <;> simp [hvalid]

theorem keyOf_of_valid {r : Request} (h : Utf8.valid (Percent.decode r.path) = true) :
    keyOf r = String.ofList (Route.keyOfPath (Utf8.lossy (Percent.decode r.path))) := by
  rw [keyOf, Route.keyOf, Route.readPath_eq, if_pos h]

/-- A visit about keys does to the values what the method of its request says. -/
theorem held_outcome (door : Door MemoryStore) {v : Visit}
    (h : Route.IsKeyPath v.request.path) :
    (outcome MemoryStore.store door v).store.held = door.store.held.after v.request := by
  rw [outcome, Contents.after, if_pos h]
  by_cases hpost : v.request.method.name = "POST"
  · rw [keyOutcome_of_post hpost, if_pos hpost, held_writeKeys]
  by_cases hdelete : v.request.method.name = "DELETE"
  · rw [keyOutcome_of_delete hdelete, if_neg hpost, if_pos hdelete, held_removeKey]
    by_cases hkey : keyOf v.request = ""
    · rw [if_pos hkey, if_neg (keyOf_eq_empty_iff.mp hkey)]
    · have hcarries := not_not.mp (mt keyOf_eq_empty_iff.mpr hkey)
      rw [if_neg hkey, if_pos hcarries, keyOf_of_valid hcarries.1]
  rw [if_neg hpost, if_neg hdelete]
  by_cases hget : v.request.method.name = "GET"
  · rw [keyOutcome_of_get hget]
    rfl
  · rw [keyOutcome_of_other hget hpost hdelete]

theorem held_visit (door : Door MemoryStore) (v : Visit) :
    (visit MemoryStore.store door v).2.store.held = door.store.held.after v.request := by
  by_cases hkey : Route.IsKeyPath v.request.path
  · rw [visit_store _ _ hkey, held_outcome door hkey]
  · rw [visit, Contents.after, if_neg hkey]
    rcases serve_of_not_key MemoryStore.store v.order door v.request v.elapsed hkey with h | h | h
    · rw [h, held_handleJoin]
    · rw [h]; rfl
    · rw [h]

/-! ## Runs -/

/-- A run does to the values what its requests say, one after the other. -/
theorem held_after (door : Door MemoryStore) (visits : List Visit) :
    (after MemoryStore.store door visits).store.held =
      (visits.map Visit.request).foldl Contents.after door.store.held := by
  induction visits generalizing door with
  | nil => rfl
  | cons v visits ih => rw [after_cons, ih, held_visit, List.map_cons, List.foldl_cons]

theorem held_after_new (nodeId addr : String) (metrics : RequestMetrics) (visits : List Visit) :
    (after MemoryStore.store ⟨.new nodeId addr, metrics⟩ visits).store.held =
      Contents.ofRequests (visits.map Visit.request) :=
  held_after _ visits

/-- Whoever reads a key is answered with its value, or with the empty text when it has none. -/
theorem visit_get (door : Door MemoryStore) (v : Visit) {k : String}
    (hmethod : v.request.method.name = "GET") (hk : k ≠ "") (hslash : '/' ∉ k.toList)
    (hpath : Percent.decode v.request.path = Utf8.encode ("/key/" ++ k).toList) :
    (visit MemoryStore.store door v).1.status = statusOk ∧
      (visit MemoryStore.store door v).1.body =
        Json.HtmlSafe.encode [(k, (door.store.held k).getD "")] := by
  rw [String.toList_append] at hpath
  have hkey : keyOf v.request = k := by
    rw [keyOf, Route.keyOf_readPath hslash hpath, String.ofList_toList]
  have houtcome : outcome MemoryStore.store door v =
      ⟨[], some (Json.HtmlSafe.encode [(k, (door.store.held k).getD "")]), door.store⟩ := by
    rw [outcome, keyOutcome_of_get hmethod, hkey, readKey, if_neg hk]
    rfl
  have hroute := Route.isKeyPath_of_decode hpath
  rw [visit_status _ _ hroute, visit_body _ _ hroute, houtcome]
  exact ⟨rfl, rfl⟩

/-- **Reading your writes.** After any run from a node that held nothing, the node has as many keys
as the requests left values, and reading a key that a path can spell is answered with the value that
they left under it, or with the empty text. -/
theorem get_after_run (nodeId addr : String) (metrics : RequestMetrics) (visits : List Visit) :
    let door := after MemoryStore.store ⟨.new nodeId addr, metrics⟩ visits
    let contents := Contents.ofRequests (visits.map Visit.request)
    (door.store.len : ℕ∞) = contents.keys.encard ∧
      ∀ (k : String) (v : Visit), k ≠ "" → '/' ∉ k.toList → v.request.method.name = "GET" →
        Percent.decode v.request.path = Utf8.encode ("/key/" ++ k).toList →
          (visit MemoryStore.store door v).1.status = 200 ∧
            (visit MemoryStore.store door v).1.body =
              Json.HtmlSafe.encode [(k, (contents k).getD "")] := by
  intro door contents
  have hheld : door.store.held = contents := held_after_new nodeId addr metrics visits
  refine ⟨?_, ?_⟩
  · rw [← hheld]
    exact door.store.len_eq_encard
  · intro k v hk hslash hmethod hpath
    rw [← hheld]
    exact visit_get door v hmethod hk hslash hpath

/-- Of an entry written twice the later one is read; a path behind the prefix is no matter to a
POST, and an escaped key is the key. -/
theorem get_after_posts_and_delete :
    let visits := [Visit.ofTexts .post "/key%FF" "\x7b\"a\":\"1\",\"a\":\"2\",\"b\":\"3\"\x7d",
      Visit.ofTexts .delete "/key/b" "", Visit.ofTexts .post "/join" "\x7b\"a\":\"4\"\x7d"]
    let door := after MemoryStore.store ⟨.new "n" "h:1", .new⟩ visits
    let get := Visit.ofTexts .get "/key/%61" ""
    "a" ≠ "" ∧ '/' ∉ "a".toList ∧ get.request.method.name = "GET" ∧
      Percent.decode get.request.path = Utf8.encode ("/key/" ++ "a").toList ∧
      (visit MemoryStore.store door get).1.status = 200 ∧
      (visit MemoryStore.store door get).1.body = Json.HtmlSafe.encode [("a", "2")] := by
  intro visits door get
  have hpath : Percent.decode get.request.path = Utf8.encode ("/key/" ++ "a").toList := by
    decide +kernel
  have hvalue : Contents.ofRequests (visits.map Visit.request) "a" = some "2" := by decide +kernel
  have hget := (get_after_run "n" "h:1" .new visits).2 "a" get (by decide) (by decide) rfl hpath
  rw [hvalue] at hget
  exact ⟨by decide, by decide, rfl, hpath, hget⟩

end Door

end FrontDoor
