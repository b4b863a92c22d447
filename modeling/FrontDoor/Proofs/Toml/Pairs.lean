import FrontDoor.Proofs.Toml.Derivations
import FrontDoor.Proofs.Toml.Strings

/-!
# Documents of one pair

A line with a bare key and a basic string is a document with one entry: the name is the key, and the
value is the text that the string spells (`readEntries?_pairText`).
-/

namespace FrontDoor.Toml

/-- A key without quotes. -/
structure BareKey (name : List Char) : Prop where
  ne_nil : name ≠ []
  chars : ∀ c ∈ name, isKeyChar c = true

/-- How a line may end where the text ends. -/
inductive LineEnd : List Char → Prop where
  | nothing : LineEnd []
  | lf : LineEnd ['\n']
  | crlf : LineEnd ['\r', '\n']

/-- The one line of a text that gives a name a string. -/
inductive PairText (name : List Char) (s : String) : List Char → Prop where
  | mk {x after : List Char} : StringText x s → LineEnd after →
      PairText name s (name ++ ' ' :: '=' :: ' ' :: (x ++ after))

variable {name x more after : List Char} {s : String}

/-! ## Keys -/

theorem ne_of_isKeyChar {c d : Char} (hc : isKeyChar c = true) (hd : isKeyChar d = false) :
    c ≠ d := by
  rintro rfl
  rw [hc] at hd
  cases hd

theorem skipBlanks_bare (h : BareKey name) (more : List Char) :
    skipBlanks (name ++ more) = name ++ more := by
  obtain ⟨c, tail, rfl⟩ := List.exists_cons_of_ne_nil h.ne_nil
  have hc := h.chars c List.mem_cons_self
  have hblank : isBlank c = false := by
    rw [isBlank, decide_eq_false (ne_of_isKeyChar hc (by decide)),
      decide_eq_false (ne_of_isKeyChar hc (by decide)), Bool.or_false]
  exact List.dropWhile_cons_of_neg (by simp [hblank])

theorem skipMark_bare (h : BareKey name) (more : List Char) :
    skipMark (name ++ more) = name ++ more := by
  obtain ⟨c, tail, rfl⟩ := List.exists_cons_of_ne_nil h.ne_nil
  unfold skipMark
  split
  · next heq =>
    exact absurd (List.cons.inj heq).1 (ne_of_isKeyChar (h.chars c List.mem_cons_self) (by decide))
  · rfl

theorem readKeyPart?_bare (h : BareKey name) (more : List Char) :
    readKeyPart? (name ++ ' ' :: more) = some (String.ofList name, ' ' :: more) := by
  have htake : (name ++ ' ' :: more).takeWhile isKeyChar = name := by
    rw [List.takeWhile_append_of_pos h.chars, List.takeWhile_cons_of_neg (by decide),
      List.append_nil]
  have hdrop : (name ++ ' ' :: more).dropWhile isKeyChar = ' ' :: more := by
    rw [List.dropWhile_append_of_pos h.chars, List.dropWhile_cons_of_neg (by decide)]
  obtain ⟨c, tail, rfl⟩ := List.exists_cons_of_ne_nil h.ne_nil
  have hc := h.chars c List.mem_cons_self
  unfold readKeyPart?
  split
  · next heq => exact absurd (List.cons.inj heq).1 (ne_of_isKeyChar hc (by decide))
  · next heq => exact absurd (List.cons.inj heq).1 (ne_of_isKeyChar hc (by decide))
  · rw [htake, hdrop]
    rfl

/-- A bare key in front of an equals sign. -/
def bareKey (name more : List Char) : Key where
  first := ⟨String.ofList name, name ++ ' ' :: '=' :: more, ' ' :: '=' :: more⟩
  path := []
  last := String.ofList name

theorem keyAt_bare (h : BareKey name) (more : List Char) :
    KeyAt maxKeyParts (name ++ ' ' :: '=' :: more) (bareKey name more) ('=' :: more) := by
  have hpart := readKeyPart?_bare h ('=' :: more)
  have hstart := skipBlanks_bare h (' ' :: '=' :: more)
  rw [← hstart] at hpart
  have hdot : (skipBlanks (' ' :: '=' :: more)).head? ≠ some '.' := by
    rw [show skipBlanks (' ' :: '=' :: more) = '=' :: more from rfl]
    simp
  have hparts := KeyParts.last hpart hdot
  rw [hstart] at hparts
  exact .mk hparts (by simp [maxKeyParts])

/-! ## The line -/

theorem endLine?_lineEnd (h : LineEnd after) : endLine? after = some [] := by
  cases h <;> rfl

theorem valueAt_stringText (h : StringText x s) (hafter : LineEnd after) :
    ValueAt maxKeyParts maxDepth (x ++ after) (.string s) after := by
  have hquote : ∀ c ∈ after.head?, c ≠ '"' := by
    cases hafter <;> simp
  have hread := readString?_stringText h hquote
  obtain ⟨hchars⟩ := h
  rw [List.cons_append] at hread ⊢
  refine .scalar ?_
  simp only [readScalar?, hread]
  rfl

/-- The pair of such a line. -/
theorem says_pair (h : BareKey name) (hx : StringText x s) (hafter : LineEnd after) :
    Says maxKeyParts maxDepth (name ++ ' ' :: '=' :: ' ' :: (x ++ after))
      [.pair (bareKey name (' ' :: (x ++ after))) (.string s) ⟨x ++ after, after⟩] := by
  have hvalue : skipBlanks (' ' :: (x ++ after)) = x ++ after := by
    obtain ⟨hchars⟩ := hx
    rfl
  have hpair := StatementAt.pair (keyAt_bare h (' ' :: (x ++ after)))
    (hvalue.symm ▸ valueAt_stringText hx hafter) (endLine?_lineEnd hafter)
  rw [hvalue] at hpair
  refine .statement ?_ .nil
  rw [skipBlanks_bare h]
  exact hpair

/-- **A line that gives a name a string is a document with this entry.** -/
theorem readEntries?_pairText (h : BareKey name) {text : List Char} (htext : PairText name s text) :
    ∃ place, readEntries? text = some [⟨String.ofList name, .string s, place⟩] := by
  obtain @⟨x, after, hx, hafter⟩ := htext
  have hsaid := says_pair h hx hafter
  rw [← skipMark_bare h] at hsaid
  exact ⟨⟨x ++ after, after⟩, readEntries?_eq_some_iff.mpr ⟨_, _, hsaid, rfl, rfl⟩⟩

end FrontDoor.Toml
