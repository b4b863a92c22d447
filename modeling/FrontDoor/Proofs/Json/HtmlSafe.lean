import FrontDoor.Json.HtmlSafe
import FrontDoor.Proofs.Json.Writer

/-!
# The dialect that is safe inside HTML

The stretches in which a fragment is copied lie between two replaced characters
(`stretches_pieces`), so a fragment is written as if every character were replaced or copied by
itself (`speaks_fragment`). No document of this dialect has a character that matters to HTML, or a
raw control character (`exists_clean_text`).
-/

namespace FrontDoor.Json.HtmlSafe

/-- A character as it is written: replaced, or as it is. -/
def replaced (c : Char) : List Char := ((replacement? c).map String.toList).getD [c]

/-- The characters that are replaced, with what stands in their place. -/
def replacements : List (Char × String) :=
  [('<', "\\u003c"), ('>', "\\u003e"), ('&', "\\u0026"), ('\u2028', "\\u2028"),
    ('\u2029', "\\u2029")]

theorem replacement?_eq_some {c : Char} {r : String} (h : replacement? c = some r) :
    (c, r) ∈ replacements := by
  unfold replacement? at h
  repeat' split at h
  all_goals simp_all [replacements]

theorem replacement?_eq_none_iff {c : Char} :
    replacement? c = none ↔ c ≠ '<' ∧ c ≠ '>' ∧ c ≠ '&' ∧ c ≠ '\u2028' ∧ c ≠ '\u2029' := by
  unfold replacement?
  repeat' split
  all_goals simp_all

theorem replaced_of_none {c : Char} (h : replacement? c = none) : replaced c = [c] := by
  rw [replaced, h]
  rfl

theorem asciiBytes_replacement {c : Char} {r : String} (h : replacement? c = some r) :
    asciiBytes r = Utf8.encode r.toList := by
  have hall : ∀ e ∈ replacements, Utf8.IsAscii e.2.toList := by decide
  exact asciiBytes_eq_encode (hall _ (replacement?_eq_some h))

/-! ## Fragments -/

theorem replaceAll_append (cs ds : List Char) :
    replaceAll (cs ++ ds) = replaceAll cs ++ replaceAll ds := List.flatMap_append

theorem replaceAll_cons (c : Char) (cs : List Char) :
    replaceAll (c :: cs) = replaced c ++ replaceAll cs := List.flatMap_cons

theorem replaceAll_of_none {cs : List Char} (h : ∀ c ∈ cs, replacement? c = none) :
    replaceAll cs = cs := by
  induction cs with
  | nil => rfl
  | cons c cs ih =>
    obtain ⟨hc, hcs⟩ := List.forall_mem_cons.mp h
    rw [replaceAll_cons, ih hcs, replaced_of_none hc]
    rfl

/-- How many bytes a text takes, and so at which offset the text behind it stands. -/
def width (cs : List Char) : Nat := (Utf8.encode cs).length

theorem width_append (cs ds : List Char) : width (cs ++ ds) = width cs + width ds := by
  rw [width, Utf8.encode_append, List.length_append]
  rfl

theorem width_singleton (c : Char) : width [c] = c.utf8Size := by
  rw [width, Utf8.encode_singleton, String.length_utf8EncodeChar]

/-- The pieces of the text that stands behind `front`: a stretch of characters that stand for
themselves, the replacement of the character behind it, and so on up to a last stretch. -/
inductive Stretches : List Char → List Char → List Piece → Prop where
  | last {front middle : List Char} : (∀ c ∈ middle, replacement? c = none) →
      Stretches front middle [.copy (width front) (width (front ++ middle))]
  | more {front middle rest : List Char} {c : Char} {r : String} {ps : List Piece} :
      (∀ c ∈ middle, replacement? c = none) → replacement? c = some r →
      Stretches (front ++ middle ++ [c]) rest ps →
      Stretches front (middle ++ c :: rest)
        (.copy (width front) (width (front ++ middle)) :: .replace r :: ps)

/-- The loop in the middle of a stretch: `middle` has been passed and is not yet copied. -/
theorem exists_stretches (done : List Piece) (front middle cs : List Char)
    (h : ∀ c ∈ middle, replacement? c = none) :
    ∃ ps, Stretches front (middle ++ cs) ps ∧
      piecesOnto done (width front) (width (front ++ middle)) cs = done.reverse ++ ps := by
  induction cs generalizing done front middle with
  | nil =>
    rw [List.append_nil, piecesOnto, List.reverse_cons]
    exact ⟨_, .last h, rfl⟩
  | cons c cs ih =>
    have hnext : width (front ++ middle) + c.utf8Size = width (front ++ middle ++ [c]) := by
      rw [width_append (front ++ middle), width_singleton]
    rw [piecesOnto, hnext]
    cases hc : replacement? c with
    | some r =>
      -- The stretch ends here; the next one begins behind the character.
      obtain ⟨ps, hps, heq⟩ :=
        ih (.replace r :: .copy (width front) (width (front ++ middle)) :: done)
          (front ++ middle ++ [c]) [] (List.forall_mem_nil _)
      rw [List.append_nil] at heq
      refine ⟨_, .more h hc hps, ?_⟩
      dsimp only
      rw [heq, List.reverse_cons, List.reverse_cons, List.append_assoc, List.append_assoc]
      rfl
    | none =>
      -- The character joins the stretch.
      obtain ⟨ps, hps, heq⟩ := ih done front (middle ++ [c])
        (List.forall_mem_append.mpr ⟨h, List.forall_mem_singleton.mpr hc⟩)
      rw [List.append_assoc] at hps
      rw [← List.append_assoc] at heq
      exact ⟨ps, hps, heq⟩

theorem stretches_pieces (cs : List Char) : Stretches [] cs (pieces cs) := by
  obtain ⟨ps, hps, heq⟩ := exists_stretches [] [] [] cs (List.forall_mem_nil _)
  have hpieces : pieces cs = ps := heq
  rw [hpieces]
  exact hps

/-- A copy takes the bytes between its offsets. -/
theorem write_copy (front middle rest : List Char) :
    (Piece.copy (width front) (width (front ++ middle))).write
      (Utf8.encode (front ++ (middle ++ rest))).toByteArray = Utf8.encode middle := by
  rw [Piece.write, ByteArray.data_extract, Array.toList_extract, List.toList_data_toByteArray,
    List.extract_eq_take_drop, Utf8.encode_append, Utf8.encode_append, width_append,
    Nat.add_sub_cancel_left, width, width, List.drop_left, List.take_left]

theorem Stretches.write {front rest : List Char} {ps : List Piece} (h : Stretches front rest ps) :
    ps.flatMap (Piece.write (Utf8.encode (front ++ rest)).toByteArray) =
      Utf8.encode (replaceAll rest) := by
  induction h with
  | @last front middle hplain =>
    have hcopy := write_copy front middle []
    rw [List.append_nil] at hcopy
    rw [List.flatMap_singleton, hcopy, replaceAll_of_none hplain]
  | @more front middle rest c r ps hplain hc _ ih =>
    have hwhole : front ++ (middle ++ c :: rest) = front ++ middle ++ [c] ++ rest := by
      rw [List.append_assoc, List.append_assoc]
      rfl
    rw [List.flatMap_cons, List.flatMap_cons, write_copy, hwhole, ih, Piece.write,
      asciiBytes_replacement hc, replaceAll_append, replaceAll_of_none hplain, replaceAll_cons,
      replaced, hc, Utf8.encode_append, Utf8.encode_append]
    rfl

theorem speaks_fragment : Speaks fragment replaced := fun cs => (stretches_pieces cs).write

theorem encode_eq (entries : List (String × String)) :
    encode entries = Utf8.encode (stringObjectText replaced entries) :=
  stringObject_eq_encode speaks_fragment entries

/-! ## Clean texts -/

/-- Whether a text has none of the characters that matter to HTML and no control character. -/
def Clean (text : List Char) : Prop :=
  ∀ c ∈ text, c ≠ '<' ∧ c ≠ '>' ∧ c ≠ '&' ∧ c ≠ '\u2028' ∧ c ≠ '\u2029' ∧ 0x20 ≤ c.toNat

instance (text : List Char) : Decidable (Clean text) := List.decidableBAll _ text

theorem Clean.replacement?_eq_none {text : List Char} (h : Clean text) :
    ∀ c ∈ text, replacement? c = none := by
  intro c hc
  obtain ⟨h₁, h₂, h₃, h₄, h₅, -⟩ := h c hc
  exact replacement?_eq_none_iff.mpr ⟨h₁, h₂, h₃, h₄, h₅⟩

theorem clean_punctuation : Clean ['\x7b', '\x7d', ':', ',', '"'] := by decide

theorem clean_escape {c : Char} {e : List Char} (h : escape? c = some e) : Clean e := by
  have hshort : ∀ s ∈ shortEscapes, Clean ['\\', s.2] := by decide
  have hcontrol : ∀ n < 0x20, Clean ('\\' :: 'u' :: '0' :: '0' :: twoHexDigits n) := by decide
  rcases escape?_eq_some h with ⟨d, hd, rfl⟩ | ⟨hlt, rfl⟩
  · exact hshort _ hd
  · exact hcontrol _ hlt

theorem clean_written (c : Char) : Clean (written replaced c) := by
  unfold written
  cases he : escape? c with
  | some e => exact clean_escape he
  | none =>
    rw [Option.getD_none, replaced]
    cases hr : replacement? c with
    | some r =>
      have hall : ∀ e ∈ replacements, Clean e.2.toList := by decide
      exact hall _ (replacement?_eq_some hr)
    | none =>
      obtain ⟨h₁, h₂, h₃, h₄, h₅⟩ := replacement?_eq_none_iff.mp hr
      intro d hd
      rw [Option.map_none, Option.getD_none, List.mem_singleton] at hd
      subst hd
      exact ⟨h₁, h₂, h₃, h₄, h₅, (escape?_eq_none he).2.2⟩

/-- A document is the UTF-8 of a clean text. -/
theorem exists_clean_text (entries : List (String × String)) :
    ∃ text, encode entries = Utf8.encode text ∧ Clean text :=
  ⟨_, encode_eq entries, forall_mem_stringObjectText clean_punctuation clean_written entries⟩

end FrontDoor.Json.HtmlSafe
