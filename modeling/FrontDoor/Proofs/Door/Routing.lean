import FrontDoor.Proofs.Door.Calls
import FrontDoor.Store.Memory

/-!
# Where a request goes

Routing compares texts, and a text may come from bytes that are none. Nevertheless the bytes decide:
`Route.resolve_eq_iff` says so of the route, and here it is said of what a visit does. Bytes that
are no text carry no key.
-/

namespace FrontDoor.Door

variable {σ : Type} {s : Store σ} {door : Door σ} {v : Visit}

/-- A path whose bytes are no text carries no key. -/
theorem keyOf_of_not_text {r : Request} (h : ¬∃ cs, Percent.decode r.path = Utf8.encode cs) :
    keyOf r = "" := by
  rw [← Utf8.valid_iff] at h
  rw [keyOf, Route.keyOf, Route.readPath_eq, if_neg h, String.ofList_nil]

/-- The store is then asked for the empty key at most, or to set what a body holds. -/
theorem calls_of_not_text (h : ¬∃ cs, Percent.decode v.request.path = Utf8.encode cs) {c : Call}
    (hc : c ∈ calls s door v) : c = .get "" ∨ EntryOf v.request.body c := by
  have hnokey := keyOf_of_not_text h
  by_cases hkey : Route.IsKeyPath v.request.path
  · rcases mem_calls_of_key hkey hc with ⟨-, hget⟩ | ⟨-, hne, -⟩ | hentry
    · rw [hnokey] at hget
      exact .inl hget
    · exact absurd hnokey hne
    · exact .inr hentry
  · -- The other endpoints have paths that are texts, so nothing is called.
    have hroute : routeOf v.request = .unknown :=
      ((Route.resolve_eq_iff.mp rfl).of_not_text h).resolve_left
        (mt Route.resolve_eq_key_iff.mp hkey)
    rw [calls, visit, serve_eq, hroute] at hc
    exact absurd hc List.not_mem_nil

/-- **Routing by the decoded bytes.** The bytes of a path, with every escape replaced once, are the
only thing that its text, the validity of the text and the endpoint depend on. Bytes that are no
text are about keys or nothing, and no key is read or removed for them but the empty one. -/
theorem visit_by_decoded_bytes (s : Store σ) (door : Door σ) (v : Visit) :
    ∃ b, (∀ b', Percent.Unescapes v.request.path b' ↔ b' = b) ∧
      (∀ text valid, Route.readPath v.request.path = ⟨text, valid⟩ ↔
        Utf8.Repairs b text ∧ (valid = true ↔ ∃ cs, b = Utf8.encode cs)) ∧
      (∀ route, routeOf v.request = route ↔ Route.OfBytes b route) ∧
      visit s door v =
        ((answer s v.order door v.request v.elapsed (routeOf v.request)).1.withLength,
          (answer s v.order door v.request v.elapsed (routeOf v.request)).2) ∧
      ((¬∃ cs, b = Utf8.encode cs) →
        (routeOf v.request = .key ∨ routeOf v.request = .unknown) ∧ keyOf v.request = "" ∧
          ∀ c ∈ calls s door v, c = .get "" ∨ EntryOf v.request.body c) := by
  refine ⟨Percent.decode v.request.path, ?_, ?_, ?_, ?_, ?_⟩
  · intro b'
    exact Percent.unescapes_iff
  · intro text valid
    exact Route.readPath_eq_iff
  · intro route
    exact Route.resolve_eq_iff
  · exact serve_eq s v.order door v.request v.elapsed
  · intro h
    exact ⟨(Route.resolve_eq_iff.mp rfl).of_not_text h, keyOf_of_not_text h,
      fun _ => calls_of_not_text h⟩

/-- A character that is cut off leaves a mark in the text of a path and takes its key away. -/
theorem visit_of_cut_off_key :
    let v := Visit.ofTexts .get "/key/k%E2%82" ""
    let door : Door MemoryStore := ⟨.new "n" "h:1", .new⟩
    (¬∃ cs, Percent.decode v.request.path = Utf8.encode cs) ∧
      Route.readPath v.request.path = ⟨"/key/k�".toList, false⟩ ∧
      routeOf v.request = .key ∧ keyOf v.request = "" ∧
      ∀ c ∈ calls MemoryStore.store door v, c = .get "" ∨ EntryOf v.request.body c := by
  intro v door
  have hbad : ¬∃ cs, Percent.decode v.request.path = Utf8.encode cs := by
    rw [← Utf8.valid_iff]
    decide +kernel
  obtain ⟨b, hb, -, hroute, -, hnotext⟩ := visit_by_decoded_bytes MemoryStore.store door v
  obtain rfl := (hb _).mp (Percent.unescapes_iff.mpr rfl)
  have hkey : Route.OfBytes (Percent.decode v.request.path) .key := by
    show Utf8.encode "/key".toList <+: Percent.decode v.request.path
    decide +kernel
  obtain ⟨-, hempty, hcalls⟩ := hnotext hbad
  exact ⟨hbad, by decide +kernel, (hroute _).mpr hkey, hempty, hcalls⟩

end FrontDoor.Door
