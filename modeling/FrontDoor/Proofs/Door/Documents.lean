import FrontDoor.Proofs.Door.Run
import FrontDoor.Proofs.Json.RoundTrip
import FrontDoor.Store.Memory

/-!
# What a reader is answered with

The body of an answered GET is the document of one entry, the key and its value, whatever the status
of the response. Whatever stands in the two, the document is safe inside HTML and says exactly them.
-/

namespace FrontDoor.Door

open Json

theorem read?_document (k v : String) (t : Bytes) :
    (StringMap.read? (HtmlSafe.encode [(k, v)] ++ t)).map Dictionary.toList = some [(k, v)] := by
  rw [HtmlSafe.read?_encode]
  rfl

variable {σ : Type} (s : Store σ)

/-- A GET about keys is answered with the document of its key, or with nothing when the store could
not tell the value. -/
theorem body_of_get (door : Door σ) (v : Visit) (hmethod : v.request.method.name = "GET")
    (hkey : Route.IsKeyPath v.request.path) :
    (visit s door v).1.body =
      match (s.get door.store (keyOf v.request)).1 with
      | .ok value => HtmlSafe.encode [(keyOf v.request, value)]
      | .error _ => [] := by
  rw [visit_body s door hkey, outcome, keyOutcome_of_get hmethod, readKey]
  rcases s.get door.store (keyOf v.request) with ⟨_ | _, st⟩ <;> rfl

/-- **Answers are safe and say what was asked.** The document of a key and a value is read back to
just them, whatever bytes follow it, and none of its characters matters to HTML or is a raw control
character. So the body of every GET about keys, over any store, is free of such characters, and
whenever the store knew the value, the body is read back to the key of the path and this value. -/
theorem get_body_round_trip :
    (∀ (k v : String) (t : Bytes),
      (StringMap.read? (HtmlSafe.encode [(k, v)] ++ t)).map Dictionary.toList = some [(k, v)]) ∧
    (∀ k v : String, ∃ text, HtmlSafe.encode [(k, v)] = Utf8.encode text ∧ HtmlSafe.Clean text) ∧
    ∀ (door : Door σ) (v : Visit), v.request.method.name = "GET" →
      Route.IsKeyPath v.request.path →
        (∃ text, (visit s door v).1.body = Utf8.encode text ∧ HtmlSafe.Clean text) ∧
          ∀ value, (s.get door.store (keyOf v.request)).1 = .ok value →
            (StringMap.read? (visit s door v).1.body).map Dictionary.toList =
              some [(keyOf v.request, value)] := by
  refine ⟨read?_document, fun k v => HtmlSafe.exists_clean_text [(k, v)], ?_⟩
  intro door v hmethod hkey
  rw [body_of_get s door v hmethod hkey]
  constructor
  · cases (s.get door.store (keyOf v.request)).1 with
    | ok value => exact HtmlSafe.exists_clean_text _
    | error e => exact ⟨[], rfl, fun c hc => absurd hc List.not_mem_nil⟩
  · intro value hvalue
    rw [hvalue]
    have hread := read?_document (keyOf v.request) value []
    rw [List.append_nil] at hread
    exact hread

/-- A key and a value of markup, quotes and separators. -/
theorem get_body_of_markup :
    let node := (MemoryStore.new "n" "h:1").set "<b>" "a & \"b\"\n\u2028\\"
    let get := Visit.ofTexts .get "/key/%3Cb%3e" ""
    get.request.method.name = "GET" ∧ Route.IsKeyPath get.request.path ∧
      (StringMap.read? (visit MemoryStore.store ⟨node, .new⟩ get).1.body).map Dictionary.toList =
        some [("<b>", "a & \"b\"\n\u2028\\")] := by
  intro node get
  have hkey : Route.IsKeyPath get.request.path := by decide +kernel
  have hname : keyOf get.request = "<b>" := by decide +kernel
  have hvalue : node.get "<b>" = "a & \"b\"\n\u2028\\" := by decide +kernel
  have hread := ((get_body_round_trip MemoryStore.store).2.2 ⟨node, .new⟩ get rfl hkey).2 _ rfl
  rw [hname, hvalue] at hread
  exact ⟨rfl, hkey, hread⟩

end FrontDoor.Door
