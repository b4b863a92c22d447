import FrontDoor.Proofs.Door.Contents

/-!
# Entries that stay

The body of a POST may name any key, the path of a DELETE only keys without a slash, and never the
empty one. So an entry under the empty key or under a key with a slash can be written but not
removed: `foldl_after_of_unreachable` says that the last POST that names it is all that counts.
-/

namespace FrontDoor

namespace Contents

/-- The value that a request posts under a key, if it is a POST about keys whose body names it. -/
def posted (k : String) (r : Request) : Option String :=
  if Route.IsKeyPath r.path ∧ r.method.name = "POST" then
    (StringMap.read? r.body).bind fun entries => entries.get? k
  else none

/-- A key that no path carries. -/
def Unreachable (k : String) : Prop := k = "" ∨ '/' ∈ k.toList

theorem remove_of_unreachable {k : String} (hk : Unreachable k) (c : Contents) {path : List Char}
    (hpath : Route.keyOfPath path ≠ []) :
    c.remove (String.ofList (Route.keyOfPath path)) k = c k := by
  refine if_neg fun heq => ?_
  rcases hk with rfl | hslash
  · exact hpath (String.ofList_inj.mp (heq.symm.trans String.ofList_nil.symm))
  · rw [heq, String.toList_ofList] at hslash
    exact Route.slash_not_mem_keyOfPath path hslash

/-- One request leaves the value of such a key alone unless it posts another. -/
theorem after_of_unreachable {k : String} (hk : Unreachable k) (c : Contents) (r : Request) :
    c.after r k = (posted k r).or (c k) := by
  unfold after posted
  by_cases hroute : Route.IsKeyPath r.path
  · by_cases hpost : r.method.name = "POST"
    · rw [if_pos hroute, if_pos hpost, if_pos ⟨hroute, hpost⟩]
      cases StringMap.read? r.body <;> rfl
    · rw [if_pos hroute, if_neg hpost, if_neg (not_and.mpr fun _ => hpost), Option.none_or]
      split
      · dsimp only
        split
        · next hcarries => exact remove_of_unreachable hk c hcarries.2
        · rfl
      · rfl
  · rw [if_neg hroute, if_neg (not_and.mpr fun h => absurd h hroute), Option.none_or]

/-- Of the values that a run posts under such a key the last one is left. -/
theorem foldl_after_of_unreachable {k : String} (hk : Unreachable k) (c : Contents)
    (rs : List Request) :
    rs.foldl after c k = ((rs.filterMap (posted k)).getLast?).or (c k) := by
  induction rs generalizing c with
  | nil => rfl
  | cons r rs ih =>
    rw [List.foldl_cons, ih, after_of_unreachable hk, List.filterMap_cons]
    cases posted k r with
    | none => rw [Option.none_or]
    | some value =>
      dsimp only
      rw [List.getLast?_cons]
      cases (rs.filterMap (posted k)).getLast? <;> rfl

end Contents

namespace Door

open MemoryStore (held)

theorem after_append {σ : Type} (s : Store σ) (door : Door σ) (before later : List Visit) :
    after s door (before ++ later) = after s (after s door before) later :=
  List.foldl_append

/-- Once posted, an entry that no path carries is there after any visits that follow. -/
theorem held_of_posted {k value : String} (hk : Contents.Unreachable k) {v : Visit}
    (hv : Contents.posted k v.request = some value) (door : Door MemoryStore)
    (before later : List Visit) :
    (after MemoryStore.store door (before ++ v :: later)).store.held k =
      some (((later.map Visit.request).filterMap (Contents.posted k)).getLast?.getD value) := by
  rw [after_append, after_cons, held_after, Contents.foldl_after_of_unreachable hk, held_visit,
    Contents.after_of_unreachable hk, hv, Option.some_or]
  cases ((later.map Visit.request).filterMap (Contents.posted k)).getLast? <;> rfl

/-- **Addressable keys, and entries that stay.** A key without a slash is read back from each of its
spellings behind the key prefix; no path carries a key with one. So what a POST stores in a node
under the empty key or under a key with a slash stays: after any later visits the key has the value
of the last POST among them that names it, or else the one that it had. -/
theorem addressable_or_permanent :
    (∀ (k : List Char) (e : Bytes), '/' ∉ k → Percent.Spells e k →
      Route.readPath (Utf8.encode "/key/".toList ++ e) = ⟨"/key/".toList ++ k, true⟩ ∧
        Route.keyOfPath ("/key/".toList ++ k) = k) ∧
    (∀ (σ : Type) (s : Store σ) (door : Door σ) (v : Visit), Route.IsKeyPath v.request.path →
      '/' ∉ (keyOf v.request).toList ∧
        let answered := handleKey s v.order door v.request.method (keyOf v.request) v.request.body
          v.elapsed
        visit s door v = (answered.1.withLength, answered.2)) ∧
    ∀ (door : Door MemoryStore) (before later : List Visit) (v : Visit) (k value : String),
      k = "" ∨ '/' ∈ k.toList → Contents.posted k v.request = some value →
        (after MemoryStore.store door (before ++ v :: later)).store.held k =
          some (((later.map Visit.request).filterMap (Contents.posted k)).getLast?.getD value) := by
  refine ⟨?_, ?_, ?_⟩
  · intro k e hslash hspells
    exact ⟨Route.readPath_of_spells hspells, Route.keyOfPath_key hslash⟩
  · intro σ s door v hkey
    refine ⟨?_, serve_of_key s v.order door v.request v.elapsed hkey⟩
    rw [keyOf, String.toList_ofList]
    exact Route.slash_not_mem_keyOf _
  · intro door before later v k value hk hv
    exact held_of_posted hk hv door before later

/-- The key `%41` is not taken for `A`, and deleting does not reach a key with a slash however the
slash is written. -/
theorem slash_outlasts_deletes :
    let escaped := [0x25, 0x32, 0x35] ++ Utf8.encode "41".toList
    let post := Visit.ofTexts .post "/key" "\x7b\"a/b\":\"1\",\"\":\"2\"\x7d"
    let delete := Visit.ofTexts .delete "/key/a%2Fb" ""
    let later := [delete, Visit.ofTexts .delete "/key/" "",
      Visit.ofTexts .post "/key" "\x7b\"a/b\":\"3\"\x7d", Visit.ofTexts .delete "/key/a/b" ""]
    let door : Door MemoryStore := ⟨.new "n" "h:1", .new⟩
    let held := (after MemoryStore.store door ([] ++ post :: later)).store.held
    Percent.Spells escaped "%41".toList ∧
      Route.readPath (Utf8.encode "/key/".toList ++ escaped) = ⟨"/key/%41".toList, true⟩ ∧
      Route.IsKeyPath delete.request.path ∧ '/' ∉ (keyOf delete.request).toList ∧
      held "a/b" = some "3" ∧ held "" = some "2" := by
  intro escaped post delete later door held
  obtain ⟨haddressable, hkeys, hstays⟩ := addressable_or_permanent
  have hpercent : Percent.Escapes [0x25, 0x32, 0x35] (String.utf8EncodeChar '%') :=
    .cons (.decimal (d := 2) (by decide) (by decide)) (.decimal (d := 5) (by decide) (by decide))
      (by decide) .nil
  have hspells : Percent.Spells escaped "%41".toList :=
    .escaped hpercent (.of_not_mem (by decide))
  have hdelete : Route.IsKeyPath delete.request.path := by decide +kernel
  refine ⟨hspells, (haddressable _ _ (by decide) hspells).1, hdelete,
    (hkeys _ MemoryStore.store door delete hdelete).1, ?_, ?_⟩
  · refine (hstays door [] later post "a/b" "1" (.inr (by decide)) (by decide +kernel)).trans ?_
    decide +kernel
  · refine (hstays door [] later post "" "2" (.inl rfl) (by decide +kernel)).trans ?_
    decide +kernel

end Door

end FrontDoor
