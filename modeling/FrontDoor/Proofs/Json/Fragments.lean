import FrontDoor.Proofs.Json.HtmlSafe

/-!
# Fragments are written character by character

The loop over a fragment keeps two byte offsets and copies what lies between them. Its slices lie on
the boundaries of characters (`Stretches.slices`), and what it writes is the fragment with the
characters that matter to HTML replaced by their numbers (`replaceAll_eq_safely`). Hence a document
that is safe inside HTML is the plain one with just these characters replaced, wherever its strings
were cut (`written_by_character`).
-/

namespace FrontDoor.Json.HtmlSafe

/-! ## Slices -/

/-- Two offsets between which a text can be sliced: they are in order, in range and on the
boundaries of characters. -/
structure Slices (s : String) (start stop : Nat) : Prop where
  ordered : start ≤ stop
  inRange : stop ≤ s.utf8ByteSize
  begins : (String.Pos.Raw.mk start).IsValid s
  ends : (String.Pos.Raw.mk stop).IsValid s

theorem width_eq_utf8ByteSize (cs : List Char) : width cs = (String.ofList cs).utf8ByteSize := by
  rw [← String.size_toByteArray, String.toByteArray_ofList, List.utf8Encode, List.size_toByteArray]
  rfl

/-- What stands in front of the rest of a text ends on a boundary. -/
theorem isValid_width (front rest : List Char) :
    (String.Pos.Raw.mk (width front)).IsValid (String.ofList (front ++ rest)) := by
  rw [String.Pos.Raw.isValid_iff_exists_append]
  refine ⟨String.ofList front, String.ofList rest, String.ofList_append, ?_⟩
  rw [width_eq_utf8ByteSize]
  rfl

theorem slices_width (front middle rest : List Char) :
    Slices (String.ofList (front ++ (middle ++ rest))) (width front) (width (front ++ middle)) where
  ordered := by
    rw [width_append]
    exact Nat.le_add_right _ _
  inRange := by
    rw [← width_eq_utf8ByteSize, ← List.append_assoc, width_append (front ++ middle)]
    exact Nat.le_add_right _ _
  begins := isValid_width front (middle ++ rest)
  ends := by
    rw [← List.append_assoc]
    exact isValid_width (front ++ middle) rest

theorem Stretches.slices {front rest : List Char} {ps : List Piece} (h : Stretches front rest ps) :
    ∀ start stop, .copy start stop ∈ ps → Slices (String.ofList (front ++ rest)) start stop := by
  induction h with
  | @last front middle _ =>
    intro start stop hcopy
    obtain ⟨rfl, rfl⟩ := Piece.copy.inj (List.mem_singleton.mp hcopy)
    have hslices := slices_width front middle []
    rw [List.append_nil] at hslices
    exact hslices
  | @more front middle rest c r ps _ _ _ ih =>
    intro start stop hcopy
    rw [List.mem_cons, List.mem_cons] at hcopy
    rcases hcopy with hcopy | hcopy | hcopy
    · obtain ⟨rfl, rfl⟩ := Piece.copy.inj hcopy
      exact slices_width front middle (c :: rest)
    · cases hcopy
    · have hslices := ih start stop hcopy
      rw [List.append_assoc, List.append_assoc] at hslices
      exact hslices

/-- The last stretch runs to the end of the text. -/
theorem Stretches.exists_getLast? {front rest : List Char} {ps : List Piece}
    (h : Stretches front rest ps) :
    ∃ start, ps.getLast? = some (.copy start (width (front ++ rest))) := by
  induction h with
  | @last front middle _ => exact ⟨width front, rfl⟩
  | @more front middle rest c r ps _ _ _ ih =>
    obtain ⟨start, hlast⟩ := ih
    refine ⟨start, ?_⟩
    rw [List.append_assoc, List.append_assoc] at hlast
    rw [List.getLast?_cons, List.getLast?_cons, hlast]
    rfl

/-! ## Characters -/

/-- The characters that matter to HTML, and the two line separators. -/
def significant : List Char := ['<', '>', '&', '\u2028', '\u2029']

/-- A character by its number, in four hexadecimal digits. -/
def numericEscape (c : Char) : List Char := '\\' :: 'u' :: Digits.lastHexDigits 4 c.toNat

/-- A text in which just the significant characters are escaped. -/
def safely (cs : List Char) : List Char :=
  cs.flatMap fun c => if c ∈ significant then numericEscape c else [c]

theorem replacement?_eq_none_iff_not_mem {c : Char} : replacement? c = none ↔ c ∉ significant := by
  rw [replacement?_eq_none_iff]
  simp [significant]

theorem replaced_eq (c : Char) : replaced c = if c ∈ significant then numericEscape c else [c] := by
  split
  · next h =>
    simp only [significant, List.mem_cons, List.not_mem_nil, or_false] at h
    rcases h with rfl | rfl | rfl | rfl | rfl <;> decide
  · next h => exact replaced_of_none (replacement?_eq_none_iff_not_mem.mpr h)

theorem replaceAll_eq_safely (cs : List Char) : replaceAll cs = safely cs :=
  congrArg (List.flatMap · cs) (funext replaced_eq)

theorem fragment_eq (cs : List Char) : fragment cs = Utf8.encode (safely cs) := by
  rw [← replaceAll_eq_safely]
  exact speaks_fragment cs

/-! ## Documents -/

/-- No escape of JSON holds a significant character. -/
theorem replaceAll_escape {c : Char} {e : List Char} (h : escape? c = some e) :
    replaceAll e = e :=
  replaceAll_of_none (clean_escape h).replacement?_eq_none

theorem replaceAll_written (c : Char) :
    (written (fun d => [d]) c).flatMap replaced = written replaced c := by
  unfold written
  cases he : escape? c with
  | some e => exact replaceAll_escape he
  | none => exact List.flatMap_singleton replaced c

theorem safely_stringObjectText (entries : List (String × String)) :
    safely (stringObjectText (fun c => [c]) entries) = stringObjectText replaced entries := by
  rw [← replaceAll_eq_safely]
  exact flatMap_stringObjectText
    (fun c hc => replaced_of_none (clean_punctuation.replacement?_eq_none c hc))
    replaceAll_written entries

theorem valid_parts (ps : List Part) : Utf8.valid (ps.flatMap (Part.write fragment)) = true := by
  rw [write_eq_encode speaks_fragment]
  exact Utf8.valid_encode _

theorem write_cut {s : String} {ps : List Part} (h : Cut s.toList ps) :
    asciiBytes "\"" ++ ps.flatMap (Part.write fragment) ++ asciiBytes "\"" = quote fragment s := by
  rw [quote, write_eq_encode speaks_fragment, h.text, write_parts speaks_fragment]

/-- **Fragments are written character by character.** Every slice of a fragment that is copied is in
range and on the boundaries of characters, and the last one runs to the end of the fragment. What is
written is the fragment with just the significant characters replaced by their escapes. So a string
is written the same wherever it is cut, and a document is UTF-8 whatever stands between its
fragments. A document of strings is the plain document with just these characters replaced. -/
theorem written_by_character :
    (∀ (s : String) (start stop : Nat), .copy start stop ∈ pieces s.toList →
      Slices s start stop) ∧
    (∀ s : String, ∃ start, (pieces s.toList).getLast? = some (.copy start s.utf8ByteSize)) ∧
    (∀ s : String, fragment s.toList = Utf8.encode (safely s.toList)) ∧
    (∀ (s : String) (ps : List Part), Cut s.toList ps →
      asciiBytes "\"" ++ ps.flatMap (Part.write fragment) ++ asciiBytes "\"" =
        quote fragment s) ∧
    (∀ ps : List Part, Utf8.valid (ps.flatMap (Part.write fragment)) = true) ∧
    ∀ entries : List (String × String), ∃ text,
      Utf8.decode? (stringObject Utf8.encode entries) = some text ∧
        Utf8.decode? (encode entries) = some (safely text) := by
  refine ⟨fun s start stop hcopy => ?_, fun s => ?_, fun s => fragment_eq s.toList,
    fun s ps => write_cut, valid_parts, fun entries => ?_⟩
  · have hslices := (stretches_pieces s.toList).slices start stop hcopy
    rw [List.nil_append, String.ofList_toList] at hslices
    exact hslices
  · obtain ⟨start, hlast⟩ := (stretches_pieces s.toList).exists_getLast?
    rw [List.nil_append, width_eq_utf8ByteSize, String.ofList_toList] at hlast
    exact ⟨start, hlast⟩
  · refine ⟨stringObjectText (fun c => [c]) entries, ?_, ?_⟩
    · rw [Utf8.decode?_eq_some_iff]
      exact stringObject_eq_encode speaks_encode entries
    · rw [Utf8.decode?_eq_some_iff, safely_stringObjectText]
      exact encode_eq entries

/-- A text in which an empty slice lies between two replaced characters, the second of three bytes,
and a string cut in the middle of its stretches. -/
theorem written_by_character_of_markup :
    let s := "\u00e9<\u2028a\"&"
    let ps : List Part := [.fragment ['\u00e9', '<'], .fragment [], .fragment ['\u2028', 'a'],
      .escape ['\\', '"'], .fragment ['&']]
    .copy 3 3 ∈ pieces s.toList ∧ Slices s 3 3 ∧ Cut s.toList ps ∧
      asciiBytes "\"" ++ ps.flatMap (Part.write fragment) ++ asciiBytes "\"" =
        quote fragment s := by
  intro s ps
  have hcopy : .copy 3 3 ∈ pieces s.toList := by decide
  have hchars : s.toList =
      ['\u00e9', '<'] ++ ([] ++ (['\u2028', 'a'] ++ '"' :: (['&'] ++ []))) := by decide
  have hcut : Cut s.toList ps := by
    rw [hchars]
    exact .fragment (by simp [escape?]) (.fragment (by simp) (.fragment (by simp [escape?])
      (.escape rfl (.fragment (by simp [escape?]) .nil))))
  exact ⟨hcopy, written_by_character.1 s 3 3 hcopy, hcut, written_by_character.2.2.2.1 s ps hcut⟩

end FrontDoor.Json.HtmlSafe
