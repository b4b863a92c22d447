import FrontDoor.Json.Writer
import FrontDoor.Proofs.Text.Utf8

/-!
# Documents as texts

A dialect says how it writes a character that JSON does not escape. A way of writing fragments that
writes them character by character in a dialect writes whole documents so: where a string is cut
into fragments leaves no trace (`Cut.text`), and every document is the UTF-8 of a text
(`stringObject_eq_encode`), which is translated from dialect to dialect character by character
(`flatMap_stringObjectText`).
-/

namespace FrontDoor.Json

theorem asciiBytes_eq_encode {s : String} (h : Utf8.IsAscii s.toList) :
    asciiBytes s = Utf8.encode s.toList := (Utf8.encode_ascii h).symm

/-- A character in a string: its escape, if it has one, and otherwise what the dialect says. -/
def written (dialect : Char → List Char) (c : Char) : List Char := (escape? c).getD (dialect c)

/-- A string in quotes. -/
def quoted (dialect : Char → List Char) (s : String) : List Char :=
  '"' :: (s.toList.flatMap (written dialect) ++ ['"'])

/-- Whether fragments are written character by character in a dialect. -/
def Speaks (fragment : List Char → Bytes) (dialect : Char → List Char) : Prop :=
  ∀ cs, fragment cs = Utf8.encode (cs.flatMap dialect)

/-- The plain dialect leaves every character as it is. -/
theorem speaks_encode : Speaks Utf8.encode fun c => [c] := by
  intro cs
  rw [List.flatMap_singleton']

variable {fragment : List Char → Bytes} {dialect : Char → List Char}

/-! ## Escapes -/

/-- The characters whose escape is a single letter, with that letter. -/
def shortEscapes : List (Char × Char) :=
  [('"', '"'), ('\\', '\\'), ('\x08', 'b'), ('\x0c', 'f'), ('\n', 'n'), ('\r', 'r'), ('\t', 't')]

theorem escape?_eq_some {c : Char} {e : List Char} (h : escape? c = some e) :
    (∃ d, (c, d) ∈ shortEscapes ∧ e = ['\\', d]) ∨
      (c.toNat < 0x20 ∧ e = '\\' :: 'u' :: '0' :: '0' :: twoHexDigits c.toNat) := by
  unfold escape? at h
  repeat' split at h
  all_goals simp_all [shortEscapes]

theorem escape?_eq_none {c : Char} (h : escape? c = none) :
    c ≠ '"' ∧ c ≠ '\\' ∧ 0x20 ≤ c.toNat := by
  unfold escape? at h
  repeat' split at h
  all_goals simp_all

/-! ## Strings -/

theorem parts_cons (c : Char) (cs : List Char) :
    parts (c :: cs) =
      match escape? c with
      | some e => .escape e :: parts cs
      | none =>
        match parts cs with
        | .fragment f :: rest => .fragment (c :: f) :: rest
        | _ => .fragment [c] :: parts cs := rfl

/-- A part as a text of the dialect. -/
def Part.text (dialect : Char → List Char) : Part → List Char
  | .fragment cs => cs.flatMap dialect
  | .escape cs => cs

/-- Whatever the parts are, what is written for them is the UTF-8 of a text. -/
theorem write_eq_encode (h : Speaks fragment dialect) (ps : List Part) :
    ps.flatMap (Part.write fragment) = Utf8.encode (ps.flatMap (Part.text dialect)) := by
  induction ps with
  | nil => rfl
  | cons p ps ih =>
    have hpart : Part.write fragment p = Utf8.encode (Part.text dialect p) := by
      cases p with
      | fragment cs => exact h cs
      | escape cs => rfl
    rw [List.flatMap_cons, List.flatMap_cons, Utf8.encode_append, hpart, ih]

/-- The ways to cut a string. A fragment is a stretch of characters without escapes, as long as one
likes, and may be empty. -/
inductive Cut : List Char → List Part → Prop where
  | nil : Cut [] []
  | fragment {f cs : List Char} {ps : List Part} : (∀ c ∈ f, escape? c = none) → Cut cs ps →
      Cut (f ++ cs) (.fragment f :: ps)
  | escape {c : Char} {e cs : List Char} {ps : List Part} : escape? c = some e → Cut cs ps →
      Cut (c :: cs) (.escape e :: ps)

/-- Wherever a string is cut, the parts are its characters as they are written. -/
theorem Cut.text {cs : List Char} {ps : List Part} (h : Cut cs ps) :
    ps.flatMap (Part.text dialect) = cs.flatMap (written dialect) := by
  induction h with
  | nil => rfl
  | @fragment f cs ps hplain _ ih =>
    have hwritten : ∀ c ∈ f, written dialect c = dialect c := fun c hc => by
      rw [written, hplain c hc, Option.getD_none]
    rw [List.flatMap_cons, List.flatMap_append, ih, Part.text, List.flatMap_def (l := f),
      List.flatMap_def (l := f), List.map_congr_left hwritten]
  | @escape c e cs ps he _ ih =>
    rw [List.flatMap_cons, List.flatMap_cons, ih, Part.text, written, he, Option.getD_some]

theorem cut_parts (cs : List Char) : Cut cs (parts cs) := by
  induction cs with
  | nil => exact .nil
  | cons c cs ih =>
    rw [parts_cons]
    cases he : escape? c with
    | some e => exact .escape he ih
    | none =>
      dsimp only
      split
      · next f rest hparts =>
        -- The character joins the fragment behind it.
        rw [hparts] at ih
        obtain _ | ⟨hplain, hrest⟩ := ih
        exact .fragment (List.forall_mem_cons.mpr ⟨he, hplain⟩) hrest
      · exact .fragment (List.forall_mem_singleton.mpr he) ih

theorem write_parts (h : Speaks fragment dialect) (cs : List Char) :
    (parts cs).flatMap (Part.write fragment) = Utf8.encode (cs.flatMap (written dialect)) := by
  rw [write_eq_encode h, (cut_parts cs).text]

theorem quote_eq_encode (h : Speaks fragment dialect) (s : String) :
    quote fragment s = Utf8.encode (quoted dialect s) := by
  have hquote : asciiBytes "\"" = Utf8.encode ['"'] := by decide
  unfold quote quoted
  rw [write_parts h, hquote, ← Utf8.encode_append, ← Utf8.encode_append]
  rfl

/-! ## Objects -/

/-- A member of an object, whose name and value are texts already. -/
def memberText (m : List Char × List Char) : List Char := m.1 ++ ':' :: m.2

/-- An object of such members. -/
def objectText (members : List (List Char × List Char)) : List Char :=
  '\x7b' :: (((members.map memberText).intersperse [',']).flatten ++ ['\x7d'])

/-- An object whose values are strings. -/
def stringObjectText (dialect : Char → List Char) (entries : List (String × String)) : List Char :=
  objectText (entries.map fun e => (quoted dialect e.1, quoted dialect e.2))

/-- A list with separators is translated piece by piece. -/
theorem flatMap_flatten_intersperse {α β : Type} (f : α → List β) (sep : List α)
    (texts : List (List α)) :
    (texts.intersperse sep).flatten.flatMap f =
      ((texts.map (List.flatMap f)).intersperse (sep.flatMap f)).flatten := by
  induction texts with
  | nil => rfl
  | cons text texts ih =>
    cases texts with
    | nil => simp
    | cons text' texts =>
      rw [List.map_cons, List.map_cons, List.intersperse_cons_cons, List.intersperse_cons_cons,
        List.flatten_cons, List.flatten_cons, List.flatten_cons, List.flatten_cons,
        List.flatMap_append, List.flatMap_append, ih, List.map_cons]

theorem object_eq_encode (members : List (List Char × List Char)) :
    object (members.map fun m => (Utf8.encode m.1, Utf8.encode m.2)) =
      Utf8.encode (objectText members) := by
  have hcolon : asciiBytes ":" = Utf8.encode [':'] := by decide
  have hcomma : asciiBytes "," = Utf8.encode [','] := by decide
  have hopen : asciiBytes "\x7b" = Utf8.encode ['\x7b'] := by decide
  have hclose : asciiBytes "\x7d" = Utf8.encode ['\x7d'] := by decide
  have hmembers : (members.map fun m => (Utf8.encode m.1, Utf8.encode m.2)).map
      (fun m => m.1 ++ asciiBytes ":" ++ m.2) = (members.map memberText).map Utf8.encode := by
    rw [List.map_map, List.map_map]
    refine List.map_congr_left fun m _ => ?_
    rw [Function.comp_apply, Function.comp_apply, hcolon, memberText, ← Utf8.encode_append,
      ← Utf8.encode_append, List.append_assoc]
    rfl
  have hlist : Utf8.encode ((members.map memberText).intersperse [',']).flatten =
      (((members.map memberText).map Utf8.encode).intersperse (Utf8.encode [','])).flatten :=
    flatMap_flatten_intersperse _ _ _
  unfold object objectText
  rw [hmembers, hopen, hcomma, hclose, ← hlist, ← Utf8.encode_append, ← Utf8.encode_append]
  rfl

theorem stringObject_eq_encode (h : Speaks fragment dialect) (entries : List (String × String)) :
    stringObject fragment entries = Utf8.encode (stringObjectText dialect entries) := by
  unfold stringObject stringObjectText
  rw [← object_eq_encode, List.map_map]
  congr 1
  refine List.map_congr_left fun e _ => ?_
  rw [quote_eq_encode h, quote_eq_encode h]
  rfl

/-! ## Translating documents -/

section Translation

variable {dialect' : Char → List Char} {f : Char → List Char}

theorem flatMap_quoted (hquote : f '"' = ['"'])
    (h : ∀ c, (written dialect c).flatMap f = written dialect' c) (s : String) :
    (quoted dialect s).flatMap f = quoted dialect' s := by
  have hchars : (s.toList.flatMap (written dialect)).flatMap f =
      s.toList.flatMap (written dialect') := by
    rw [List.flatMap_assoc, funext h]
  rw [quoted, List.flatMap_cons, List.flatMap_append, List.flatMap_singleton, hquote, hchars]
  rfl

/-- A document whose characters are translated one by one is the document of another dialect, if
this is so for each character in a string and the punctuation stays as it is. -/
theorem flatMap_stringObjectText (hpunctuation : ∀ c ∈ ['\x7b', '\x7d', ':', ',', '"'], f c = [c])
    (h : ∀ c, (written dialect c).flatMap f = written dialect' c)
    (entries : List (String × String)) :
    (stringObjectText dialect entries).flatMap f = stringObjectText dialect' entries := by
  have hstring := flatMap_quoted (hpunctuation '"' (by decide)) h
  have hmembers : ((entries.map fun e => (quoted dialect e.1, quoted dialect e.2)).map
      memberText).map (List.flatMap f) =
        (entries.map fun e => (quoted dialect' e.1, quoted dialect' e.2)).map memberText := by
    rw [List.map_map, List.map_map, List.map_map]
    refine List.map_congr_left fun e _ => ?_
    rw [Function.comp_apply, Function.comp_apply, memberText, List.flatMap_append,
      List.flatMap_cons, hpunctuation ':' (by decide), hstring, hstring]
    rfl
  unfold stringObjectText objectText
  rw [List.flatMap_cons, List.flatMap_append, List.flatMap_singleton, flatMap_flatten_intersperse,
    hmembers, List.flatMap_singleton, hpunctuation '\x7b' (by decide),
    hpunctuation ',' (by decide), hpunctuation '\x7d' (by decide)]
  rfl

end Translation

/-! ## The characters of a document -/

theorem mem_or_eq_of_mem_intersperse {α : Type} {x sep : α} {l : List α}
    (h : x ∈ l.intersperse sep) : x ∈ l ∨ x = sep := by
  induction l with
  | nil => exact absurd h List.not_mem_nil
  | cons y l ih =>
    cases l with
    | nil => exact .inl h
    | cons z l =>
      rw [List.intersperse_cons_cons, List.mem_cons, List.mem_cons] at h
      rcases h with rfl | rfl | h
      · exact .inl List.mem_cons_self
      · exact .inr rfl
      · exact (ih h).imp (List.mem_cons_of_mem y) id

variable {P : Char → Prop}

theorem forall_mem_quoted (hquote : P '"') (h : ∀ c, ∀ d ∈ written dialect c, P d) (s : String) :
    ∀ c ∈ quoted dialect s, P c := by
  intro c hc
  unfold quoted at hc
  rw [List.mem_cons, List.mem_append, List.mem_flatMap, List.mem_singleton] at hc
  rcases hc with rfl | ⟨d, -, hd⟩ | rfl
  · exact hquote
  · exact h d c hd
  · exact hquote

/-- What holds of punctuation and of all characters as they are written holds in every document. -/
theorem forall_mem_stringObjectText (hpunctuation : ∀ c ∈ ['\x7b', '\x7d', ':', ',', '"'], P c)
    (h : ∀ c, ∀ d ∈ written dialect c, P d) (entries : List (String × String)) :
    ∀ c ∈ stringObjectText dialect entries, P c := by
  have hquoted := forall_mem_quoted (hpunctuation '"' (by decide)) h
  intro c hc
  unfold stringObjectText objectText at hc
  rw [List.mem_cons, List.mem_append, List.mem_flatten, List.mem_singleton] at hc
  rcases hc with rfl | ⟨text, htext, hc⟩ | rfl
  · exact hpunctuation _ (by decide)
  · rcases mem_or_eq_of_mem_intersperse htext with hmember | rfl
    · rw [List.map_map, List.mem_map] at hmember
      obtain ⟨e, -, rfl⟩ := hmember
      rw [Function.comp_apply, memberText, List.mem_append, List.mem_cons] at hc
      rcases hc with hc | rfl | hc
      · exact hquoted e.1 c hc
      · exact hpunctuation _ (by decide)
      · exact hquoted e.2 c hc
    · rw [List.mem_singleton] at hc
      exact hpunctuation c (by rw [hc]; decide)
  · exact hpunctuation _ (by decide)

end FrontDoor.Json
