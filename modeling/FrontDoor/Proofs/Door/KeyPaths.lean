import FrontDoor.Proofs.Door.Calls
import FrontDoor.Store.Memory

/-!
# Which paths carry a key

A path under the key prefix carries a key when its slashes cut it into exactly three segments, and
the third is the key. The first is then empty and the second begins with `key`, but it may go on:
the prefix stands for paths that begin like it, and the key is found by counting segments alone. So
there are keys behind other segments than `key` (`not_only_documented_paths`), and what holds of
every key that a store is asked for is `key_of_third_segment`.
-/

namespace FrontDoor.Route

/-- A path that carries a key: decoded, it is a text with a slash in front and one before the key,
and what stands between them begins with `key`. -/
structure CarriesKey (raw : Bytes) (key : String) : Prop where
  nonempty : key ≠ ""
  segments : ∃ text more, Percent.decode raw = Utf8.encode text ∧
    text.splitOn '/' = [[], "key".toList ++ more, key.toList]

/-! ## Segments -/

theorem segments_eq_splitOn (path : List Char) : segments path = path.splitOn '/' := by
  induction path with
  | nil => rfl
  | cons c cs ih =>
    rw [List.splitOn_eq_splitOnP] at ih ⊢
    rw [List.splitOnP_cons_eq_if_modifyHead, ← ih]
    by_cases hc : c = '/'
    · subst hc
      exact segments_append_slash List.not_mem_nil cs
    · rw [segments_cons_of_ne hc, if_neg (by simpa using hc)]
      rfl

/-- The segments of a path put together again. -/
theorem eq_of_splitOn {path a b c : List Char} (h : path.splitOn '/' = [a, b, c]) :
    path = a ++ '/' :: (b ++ '/' :: c) := by
  calc path = ['/'].intercalate (path.splitOn '/') := (List.intercalate_splitOn '/').symm
    _ = ['/'].intercalate [a, b, c] := by rw [h]
    _ = a ++ '/' :: (b ++ '/' :: c) := by simp [List.intercalate]

theorem keyOfPath_eq_iff {path k : List Char} (hk : k ≠ []) :
    keyOfPath path = k ↔ ∃ a b, path.splitOn '/' = [a, b, k] := by
  unfold keyOfPath
  rw [segments_eq_splitOn]
  constructor
  · intro h
    split at h
    · next a b c hsplit =>
      subst h
      exact ⟨a, b, hsplit⟩
    · exact absurd h.symm hk
  · rintro ⟨a, b, h⟩
    rw [h]

/-- Under the key prefix the first of three segments is empty, and the second begins with `key`. -/
theorem segments_of_prefix {path a b c : List Char} (h : path.splitOn '/' = [a, b, c])
    (hstart : "/key".toList <+: path) : a = [] ∧ ∃ more, b = "key".toList ++ more := by
  have hslash {seg : List Char} (hseg : seg ∈ [a, b, c]) : '/' ∉ seg := by
    rw [← h, ← segments_eq_splitOn] at hseg
    exact slash_not_mem_segment hseg
  rw [eq_of_splitOn h] at hstart
  cases a with
  | cons x a =>
    obtain ⟨rfl, -⟩ := List.cons_prefix_cons.mp hstart
    exact absurd List.mem_cons_self (hslash List.mem_cons_self)
  | nil =>
    have hkey : "key".toList <+: b ++ '/' :: c := (List.cons_prefix_cons.mp hstart).2
    obtain ⟨rest, hrest⟩ := hkey
    -- No slash is in `key`, so the second segment is not shorter.
    rcases List.append_eq_append_iff.mp hrest with ⟨more, rfl, -⟩ | ⟨cut, hcut, hslash'⟩
    · exact ⟨rfl, more, rfl⟩
    · cases cut with
      | nil => exact ⟨rfl, [], by rw [List.append_nil, hcut, List.append_nil]⟩
      | cons x cut =>
        obtain ⟨rfl, -⟩ := List.cons.inj hslash'
        have hmem : '/' ∈ "key".toList := by
          rw [hcut]
          simp
        exact absurd hmem (by decide)

/-- A path carries a key when it is under the key prefix and a key that is not empty is found. -/
theorem carriesKey_iff {raw : Bytes} {key : String} :
    CarriesKey raw key ↔
      IsKeyPath raw ∧ String.ofList (keyOf (readPath raw)) = key ∧ key ≠ "" := by
  rw [← resolve_eq_key_iff, resolve_eq_key_iff_text, readPath_eq]
  dsimp only [keyOf]
  constructor
  · rintro ⟨hne, text, more, hdecode, hsplit⟩
    have hkey : key.toList ≠ [] := by simpa using hne
    rw [hdecode, Utf8.lossy_encode, Utf8.valid_encode, if_pos rfl,
      (keyOfPath_eq_iff hkey).mpr ⟨_, _, hsplit⟩, String.ofList_toList, eq_of_splitOn hsplit]
    refine ⟨?_, rfl, hne⟩
    rw [List.append_assoc]
    exact List.prefix_append ('/' :: "key".toList) _
  · rintro ⟨hstart, hkey, hne⟩
    by_cases hvalid : Utf8.valid (Percent.decode raw) = true
    · obtain ⟨text, hdecode⟩ := Utf8.valid_iff.mp hvalid
      rw [hdecode, Utf8.lossy_encode] at hstart
      rw [if_pos hvalid, hdecode, Utf8.lossy_encode] at hkey
      have hfound : keyOfPath text = key.toList := by rw [← hkey, String.toList_ofList]
      obtain ⟨a, b, hsplit⟩ := (keyOfPath_eq_iff (by simpa using hne)).mp hfound
      obtain ⟨rfl, more, rfl⟩ := segments_of_prefix hsplit hstart
      exact ⟨hne, text, more, hdecode, hsplit⟩
    · rw [if_neg hvalid] at hkey
      exact absurd hkey.symm hne

end FrontDoor.Route

namespace FrontDoor.Door

open Route (CarriesKey IsKeyPath)

variable {σ : Type} {s : Store σ} {door : Door σ} {v : Visit}

/-- What is asked for under a key is asked for by its path. -/
theorem carriesKey_of_mem_calls {key : String} (hkey : key ≠ "")
    (h : Call.get key ∈ calls s door v ∨ Call.delete key ∈ calls s door v) :
    CarriesKey v.request.path key := by
  rcases h with h | h
  · obtain ⟨hpath, -, rfl⟩ := get_mem_calls_iff.mp h
    exact Route.carriesKey_iff.mpr ⟨hpath, rfl, hkey⟩
  · obtain ⟨hpath, -, rfl, -⟩ := delete_mem_calls_iff.mp h
    exact Route.carriesKey_iff.mpr ⟨hpath, rfl, hkey⟩

/-- It is not so that a store is asked for keys of paths `/key/…` alone: the second segment of a
path may go on behind `key`. -/
theorem not_only_documented_paths :
    ¬∀ (s : Store MemoryStore) (door : Door MemoryStore) (v : Visit) (key : String), key ≠ "" →
      Call.get key ∈ calls s door v ∨ Call.delete key ∈ calls s door v →
        Percent.decode v.request.path = Utf8.encode ("/key/".toList ++ key.toList) := by
  intro h
  have hcall : Call.get "bar" ∈
      calls MemoryStore.store ⟨.new "n" "h:1", .new⟩ (.ofTexts .get "/keyfoo/bar" "") := by
    decide +kernel
  have hpath := h _ _ _ "bar" (by decide) (.inl hcall)
  exact absurd hpath (by decide +kernel)

/-- **Where a key comes from.** When a store is asked for the value of a key that is not empty, or
to remove it, the path of the request is a text of exactly three segments: the first is empty, the
second begins with `key`, and the third is the key. In every path like this the key is found, and no
other path under the key prefix carries a key. -/
theorem key_of_third_segment (s : Store σ) (door : Door σ) (v : Visit) :
    (∀ key, key ≠ "" → Call.get key ∈ calls s door v ∨ Call.delete key ∈ calls s door v →
        CarriesKey v.request.path key) ∧
      (∀ key, CarriesKey v.request.path key → routeOf v.request = .key ∧ keyOf v.request = key) ∧
      (routeOf v.request = .key → (¬∃ key, CarriesKey v.request.path key) →
        keyOf v.request = "") := by
  refine ⟨fun key hne h => carriesKey_of_mem_calls hne h, fun key h => ?_,
    fun hroute hnone => ?_⟩
  · obtain ⟨hpath, hkey, -⟩ := Route.carriesKey_iff.mp h
    exact ⟨Route.resolve_eq_key_iff.mpr hpath, hkey⟩
  · by_contra hne
    exact hnone ⟨_, Route.carriesKey_iff.mpr ⟨Route.resolve_eq_key_iff.mp hroute, rfl, hne⟩⟩

/-- A key with an escape in it is found behind a segment that goes on, and a fourth segment takes it
away. -/
theorem key_of_longer_segment :
    let node := (MemoryStore.new "n" "h:1").set "a b" "v"
    let door : Door MemoryStore := ⟨node, .new⟩
    let longer := Visit.ofTexts .delete "/keys/a%20b" ""
    let nested := Visit.ofTexts .get "/key/a/b" ""
    Call.delete "a b" ∈ calls MemoryStore.store door longer ∧
      CarriesKey longer.request.path "a b" ∧ keyOf longer.request = "a b" ∧
      routeOf nested.request = .key ∧ (¬∃ key, CarriesKey nested.request.path key) ∧
      keyOf nested.request = "" := by
  intro node door longer nested
  have hcall : Call.delete "a b" ∈ calls MemoryStore.store door longer := by decide +kernel
  obtain ⟨hcarries, hfound, -⟩ := key_of_third_segment MemoryStore.store door longer
  obtain ⟨-, -, hnone⟩ := key_of_third_segment MemoryStore.store door nested
  have hpath := hcarries "a b" (by decide) (.inr hcall)
  have hroute : routeOf nested.request = .key := by decide +kernel
  have hno : ¬∃ key, CarriesKey nested.request.path key := by
    have hdecoded : Percent.decode nested.request.path = Utf8.encode "/key/a/b".toList := by
      decide +kernel
    have hfour : ("/key/a/b".toList.splitOn '/').length = 4 := by decide +kernel
    rintro ⟨key, -, text, more, htext, hsplit⟩
    obtain rfl := Utf8.encode_injective (hdecoded.symm.trans htext)
    rw [hsplit] at hfour
    cases hfour
  exact ⟨hcall, hpath, (hfound _ hpath).2, hroute, hno, hnone hroute hno⟩

end FrontDoor.Door
