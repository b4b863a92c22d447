import FrontDoor.Proofs.Http.Percent
import FrontDoor.Proofs.Text.Repair
import FrontDoor.Route
import Mathlib.Tactic.SplitIfs

/-!
# Which endpoint a path selects

Routing looks at the decoded text, which may be lossy. `resolve_eq_iff` says that it finds what the
decoded bytes ask for, so ill-formed bytes neither make nor break a route. `keyOf_readPath` reads
the key back from a path that spells it.
-/

namespace FrontDoor.Route

/-- A raw path under the key prefix: what it decodes to begins with the bytes of the prefix. -/
def IsKeyPath (raw : Bytes) : Prop := Utf8.encode "/key".toList <+: Percent.decode raw

instance : DecidablePred IsKeyPath := fun raw =>
  inferInstanceAs (Decidable (Utf8.encode "/key".toList <+: Percent.decode raw))

/-- Both ways of decoding a path agree: the text is the lossy one, which replaces nothing in a path
that is UTF-8. -/
theorem readPath_eq (raw : Bytes) :
    readPath raw = ⟨Utf8.lossy (Percent.decode raw), Utf8.valid (Percent.decode raw)⟩ := by
  rw [readPath, Percent.text?_eq, Utf8.decode?]
  cases Utf8.valid (Percent.decode raw) <;> rfl

/-- The text of a path and its validity, said of the decoded bytes. -/
theorem readPath_eq_iff {raw : Bytes} {text : List Char} {valid : Bool} :
    readPath raw = ⟨text, valid⟩ ↔
      Utf8.Repairs (Percent.decode raw) text ∧
        (valid = true ↔ ∃ cs, Percent.decode raw = Utf8.encode cs) := by
  rw [readPath_eq, DecodedPath.mk.injEq, Utf8.repairs_iff, ← Utf8.valid_iff]
  constructor
  · rintro ⟨rfl, rfl⟩
    exact ⟨rfl, Iff.rfl⟩
  · rintro ⟨rfl, hvalid⟩
    exact ⟨rfl, (Bool.eq_iff_iff.mpr hvalid).symm⟩

theorem resolve_eq_key_iff_text {path : List Char} :
    resolve path = .key ↔ "/key".toList <+: path := by
  rw [← List.isPrefixOf_iff_prefix]
  constructor
  · intro h
    unfold resolve at h
    split_ifs at h with hkey
    exact hkey
  · intro h
    rw [resolve, if_pos h]

theorem resolve_eq_join_iff_text {path : List Char} :
    resolve path = .join ↔ path = "/join".toList := by
  constructor
  · intro h
    unfold resolve at h
    split_ifs at h with _ hjoin
    exact hjoin
  · rintro rfl
    rfl

theorem resolve_eq_status_iff_text {path : List Char} :
    resolve path = .status ↔ path = "/status".toList := by
  constructor
  · intro h
    unfold resolve at h
    split_ifs at h with _ _ hstatus
    exact hstatus
  · rintro rfl
    rfl

/-- Ill-formed bytes neither make nor break the key prefix. -/
theorem resolve_eq_key_iff {raw : Bytes} : resolve (readPath raw).text = .key ↔ IsKeyPath raw := by
  have hascii : Utf8.IsAscii "/key".toList := by decide
  rw [readPath_eq, resolve_eq_key_iff_text, IsKeyPath, Utf8.encode_ascii hascii]
  exact Utf8.prefix_lossy_iff hascii

theorem resolve_eq_join_iff {raw : Bytes} :
    resolve (readPath raw).text = .join ↔ Percent.decode raw = Utf8.encode "/join".toList := by
  rw [resolve_eq_join_iff_text, readPath_eq]
  exact Utf8.lossy_eq_ascii_iff (by decide)

theorem resolve_eq_status_iff {raw : Bytes} :
    resolve (readPath raw).text = .status ↔
      Percent.decode raw = Utf8.encode "/status".toList := by
  rw [resolve_eq_status_iff_text, readPath_eq]
  exact Utf8.lossy_eq_ascii_iff (by decide)

/-- What decoded bytes ask for, were there no text: the key prefix, one of the other paths, or
neither. -/
def OfBytes (b : Bytes) : Route → Prop
  | .key => Utf8.encode "/key".toList <+: b
  | .join => b = Utf8.encode "/join".toList
  | .status => b = Utf8.encode "/status".toList
  | .unknown => ¬Utf8.encode "/key".toList <+: b ∧ b ≠ Utf8.encode "/join".toList ∧
      b ≠ Utf8.encode "/status".toList

/-- The text selects what the bytes ask for. -/
theorem resolve_eq_iff {raw : Bytes} {route : Route} :
    resolve (readPath raw).text = route ↔ OfBytes (Percent.decode raw) route := by
  cases route with
  | key => exact resolve_eq_key_iff
  | join => exact resolve_eq_join_iff
  | status => exact resolve_eq_status_iff
  | unknown =>
    unfold OfBytes
    rw [← IsKeyPath, ← resolve_eq_key_iff, Ne, ← resolve_eq_join_iff, Ne, ← resolve_eq_status_iff]
    cases resolve (readPath raw).text <;> simp

/-- Bytes that are no text are under the key prefix or nowhere. -/
theorem OfBytes.of_not_text {b : Bytes} {route : Route} (h : OfBytes b route)
    (hb : ¬∃ cs, b = Utf8.encode cs) : route = .key ∨ route = .unknown := by
  cases route with
  | key => exact .inl rfl
  | join => exact absurd ⟨_, h⟩ hb
  | status => exact absurd ⟨_, h⟩ hb
  | unknown => exact .inr rfl

/-! ## Segments -/

theorem segments_cons_of_ne {c : Char} (h : c ≠ '/') (cs : List Char) :
    segments (c :: cs) = (c :: (segments cs).headD []) :: (segments cs).tail := by
  unfold segments
  rw [List.foldr_cons, if_neg h]
  rfl

theorem segments_append_slash {cs : List Char} (h : '/' ∉ cs) (rest : List Char) :
    segments (cs ++ '/' :: rest) = cs :: segments rest := by
  induction cs with
  | nil => rfl
  | cons c cs ih =>
    rw [List.mem_cons, not_or] at h
    rw [List.cons_append, segments_cons_of_ne (Ne.symm h.1), ih h.2]
    rfl

theorem segments_eq_singleton {cs : List Char} (h : '/' ∉ cs) : segments cs = [cs] := by
  induction cs with
  | nil => rfl
  | cons c cs ih =>
    rw [List.mem_cons, not_or] at h
    rw [segments_cons_of_ne (Ne.symm h.1), ih h.2]
    rfl

/-- No segment holds a slash. -/
theorem slash_not_mem_segment {cs seg : List Char} (h : seg ∈ segments cs) : '/' ∉ seg := by
  induction cs generalizing seg with
  | nil =>
    obtain rfl := List.mem_singleton.mp h
    exact List.not_mem_nil
  | cons c cs ih =>
    by_cases hc : c = '/'
    · have hsplit : segments (c :: cs) = [] :: segments cs := by
        rw [hc]
        exact segments_append_slash List.not_mem_nil cs
      rw [hsplit, List.mem_cons] at h
      rcases h with rfl | h
      · exact List.not_mem_nil
      · exact ih h
    · -- The character goes to the front of the first segment.
      rw [segments_cons_of_ne hc, List.mem_cons] at h
      rcases h with rfl | h
      · rw [List.mem_cons, not_or]
        exact ⟨Ne.symm hc, ih List.mem_cons_self⟩
      · exact ih (List.mem_of_mem_tail h)

theorem slash_not_mem_keyOfPath (path : List Char) : '/' ∉ keyOfPath path := by
  unfold keyOfPath
  split
  · next h => exact slash_not_mem_segment (by rw [h]; simp)
  · exact List.not_mem_nil

theorem slash_not_mem_keyOf (path : DecodedPath) : '/' ∉ keyOf path := by
  unfold keyOf
  split
  · exact slash_not_mem_keyOfPath path.text
  · exact List.not_mem_nil

theorem keyOfPath_key {k : List Char} (h : '/' ∉ k) : keyOfPath ("/key/".toList ++ k) = k := by
  have hpath : "/key/".toList ++ k = [] ++ '/' :: ("key".toList ++ '/' :: k) := rfl
  rw [keyOfPath, hpath, segments_append_slash (by simp), segments_append_slash (by decide),
    segments_eq_singleton h]

/-- The key that is read from a path which decodes to the key prefix, a slash and a key. -/
theorem keyOf_readPath {raw : Bytes} {k : List Char} (h : '/' ∉ k)
    (hraw : Percent.decode raw = Utf8.encode ("/key/".toList ++ k)) :
    keyOf (readPath raw) = k := by
  simp only [keyOf, readPath_eq, hraw, Utf8.valid_encode, Utf8.lossy_encode, if_true]
  exact keyOfPath_key h

/-- A path whose key is spelled by escapes or not is read as the path of the key. -/
theorem readPath_of_spells {e : Bytes} {k : List Char} (h : Percent.Spells e k) :
    readPath (Utf8.encode "/key/".toList ++ e) = ⟨"/key/".toList ++ k, true⟩ := by
  have hspells := Percent.decode_spells_append h []
  rw [List.append_nil, Percent.decode_nil, List.append_nil] at hspells
  have hdecode : Percent.decode (Utf8.encode "/key/".toList ++ e) =
      Utf8.encode ("/key/".toList ++ k) := by
    rw [Percent.decode_append_of_not_mem (by decide), hspells, Utf8.encode_append]
  rw [readPath_eq, hdecode, Utf8.lossy_encode, Utf8.valid_encode]

theorem isKeyPath_of_decode {raw : Bytes} {k : List Char}
    (hraw : Percent.decode raw = Utf8.encode ("/key/".toList ++ k)) : IsKeyPath raw := by
  have hpath : "/key/".toList ++ k = "/key".toList ++ ('/' :: k) := rfl
  rw [IsKeyPath, hraw, hpath, Utf8.encode_append]
  exact List.prefix_append _ _

end FrontDoor.Route
