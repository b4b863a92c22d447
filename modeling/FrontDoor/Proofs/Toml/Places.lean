import FrontDoor.Proofs.Toml.Entries
import FrontDoor.Toml.Diagnostic
import Mathlib.Data.List.TakeWhile

/-!
# Where the statements of a document stand

The statements of a text are read one after the other, each from an end of what the one before it
left. So what a statement gives a value, its mark, stands in the text (`Says.readIn`), and the marks
of later statements stand behind it (`Says.pairwise`). What is told of a place is the line and the
column at which it stands (`located_position`).
-/

namespace FrontDoor.Toml

variable {parts depth : Nat} {cs rest after : List Char}

/-! ## Keys -/

/-- A key begins with its first part, and goes on behind it. -/
theorem KeyAt.first {key : Key} (h : KeyAt parts cs key rest) :
    key.first.place.start <:+ cs ∧ rest <:+ key.first.place.start ∧
      readKeyPart? key.first.place.start = some (key.first.name, key.first.place.stop) := by
  obtain ⟨hps, -⟩ := h
  cases hps with
  | @last _ stop _ hpart _ =>
    exact ⟨skipBlanks_suffix cs, (skipBlanks_suffix stop).trans (readKeyPart?_suffix hpart), hpart⟩
  | @more _ stop _ _ _ _ hpart hdot hmore =>
    have hstop := (skipBlanks_suffix stop).trans (readKeyPart?_suffix hpart)
    exact ⟨skipBlanks_suffix cs, hmore.suffix.trans (suffix_of_eq_cons hdot hstop), hpart⟩

/-! ## Statements -/

namespace Statement

/-- Where the value or the header of a statement stands. -/
def place : Statement → Place
  | .pair _ _ place | .header _ place | .element _ place => place

/-- What a statement shows of the first name of its key: its value or its header where this is the
whole key, and the name itself where the key leads into a table. -/
def mark (s : Statement) : Place := if s.key.path.isEmpty then s.place else s.key.first.place

/-- What stands at the mark of a statement. -/
inductive Shown : Statement → Prop where
  | value {key : Key} {v : Value} {place : Place} : key.path = [] →
      readValue? maxDepth place.start = some (v, place.stop) → Shown (.pair key v place)
  | header {key : Key} {place : Place} {after : List Char} : key.path = [] →
      readStatement? place.start = some (.header key place, after) → Shown (.header key place)
  | element {key : Key} {place : Place} {after : List Char} : key.path = [] →
      readStatement? place.start = some (.element key place, after) → Shown (.element key place)
  | part {s : Statement} : s.key.path ≠ [] →
      readKeyPart? s.mark.start = some (s.key.first.name, s.mark.stop) → Shown s

/-- A statement that was read in a text, up to where the next line begins. -/
structure ReadIn (cs : List Char) (s : Statement) (after : List Char) : Prop where
  mark_suffix : s.mark.start <:+ cs
  after_suffix : after <:+ s.mark.start
  length_after : after = [] ∨ after.length < s.mark.start.length
  shown : s.Shown

variable {s : Statement}

theorem mark_of_nil (h : s.key.path = []) : s.mark = s.place := by
  rw [mark, h]
  rfl

theorem mark_of_ne_nil (h : s.key.path ≠ []) : s.mark = s.key.first.place := by
  rw [mark, if_neg (mt List.isEmpty_iff.mp h)]

theorem ReadIn.of_key {inner behind stop : List Char}
    (hinner : inner <:+ cs) (hkey : KeyAt parts inner s.key behind)
    (hplace : s.place.start <:+ cs) (hstop : stop <:+ s.place.start) (hbehind : stop <:+ behind)
    (hend : endLine? stop = some after) (hshown : s.key.path = [] → s.Shown) :
    ReadIn cs s after := by
  obtain ⟨hfirst, hrest, hpart⟩ := hkey.first
  have hmark : s.mark.start <:+ cs ∧ stop <:+ s.mark.start := by
    by_cases hpath : s.key.path = []
    · rw [mark_of_nil hpath]
      exact ⟨hplace, hstop⟩
    · rw [mark_of_ne_nil hpath]
      exact ⟨hfirst.trans hinner, hbehind.trans hrest⟩
  refine ⟨hmark.1, (endLine?_suffix hend).trans hmark.2, ?_, ?_⟩
  · exact (length_of_endLine? hend).imp_right fun h => Nat.lt_of_lt_of_le h hmark.2.length_le
  · by_cases hpath : s.key.path = []
    · exact hshown hpath
    · refine .part hpath ?_
      rw [mark_of_ne_nil hpath]
      exact hpart

theorem readIn_of_statementAt (h : StatementAt maxKeyParts maxDepth cs s after) :
    ReadIn cs s after := by
  have hread := readStatement?_eq_some_iff.mpr h
  cases h with
  | @pair cs value stop after key v hkey hvalue hend =>
    have hstart := (skipBlanks_suffix value).trans (List.suffix_cons '=' value)
    exact .of_key List.suffix_rfl hkey (hstart.trans hkey.suffix) hvalue.suffix
      (hvalue.suffix.trans hstart) hend
      fun hpath => .value hpath (readValue?_eq_some_iff.mpr hvalue)
  | @header cs stop after key hkey hend =>
    have hbehind := List.suffix_cons ']' stop
    exact .of_key (List.suffix_cons '[' cs) hkey List.suffix_rfl
      (hbehind.trans (hkey.suffix.trans (List.suffix_cons '[' cs))) hbehind hend
      fun hpath => .header hpath hread
  | @element cs stop after key hkey hend =>
    have hbehind : stop <:+ ']' :: ']' :: stop := ⟨[']', ']'], rfl⟩
    have hcs : cs <:+ '[' :: '[' :: cs := ⟨['[', '['], rfl⟩
    exact .of_key hcs hkey List.suffix_rfl (hbehind.trans (hkey.suffix.trans hcs)) hbehind hend
      fun hpath => .element hpath hread

end Statement

/-! ## The statements of a text -/

namespace Says

variable {ss : List Statement}

theorem readIn (h : Says maxKeyParts maxDepth cs ss) :
    ∀ s ∈ ss, s.mark.start <:+ cs ∧ s.Shown := by
  induction h with
  | nil => exact fun s hs => absurd hs List.not_mem_nil
  | blank hline _ ih =>
    exact fun s hs => (ih s hs).imp_left fun hmark => hmark.trans (endLine?_suffix hline)
  | @statement cs after s ss hs _ ih =>
    have hin := Statement.readIn_of_statementAt hs
    have hmark := hin.mark_suffix.trans (skipBlanks_suffix cs)
    refine List.forall_mem_cons.mpr ⟨⟨hmark, hin.shown⟩, fun s' hs' => ?_⟩
    exact (ih s' hs').imp_left fun hmark' => hmark'.trans (hin.after_suffix.trans hmark)

theorem eq_nil (h : Says parts depth [] ss) : ss = [] := by
  generalize hcs : ([] : List Char) = cs at h
  induction h with
  | nil => rfl
  | blank hline _ ih =>
    subst hcs
    cases hline
    exact ih rfl
  | statement hs _ _ =>
    subst hcs
    cases hs.endLine?_eq_none

/-- The mark of a later statement stands behind those before it. -/
theorem pairwise (h : Says maxKeyParts maxDepth cs ss) :
    ss.Pairwise fun s s' => s'.mark.start.length < s.mark.start.length := by
  induction h with
  | nil => exact .nil
  | blank _ _ ih => exact ih
  | @statement cs after s ss hs hrest ih =>
    refine List.pairwise_cons.mpr ⟨fun s' hs' => ?_, ih⟩
    rcases (Statement.readIn_of_statementAt hs).length_after with rfl | hlength
    · rw [hrest.eq_nil] at hs'
      exact absurd hs' List.not_mem_nil
    · exact Nat.lt_of_le_of_lt (hrest.readIn s' hs').1.length_le hlength

end Says

theorem skipMark_suffix (text : List Char) : skipMark text <:+ text := by
  unfold skipMark
  split
  · exact List.suffix_cons _ _
  · exact List.suffix_rfl

/-! ## Lines and columns -/

/-- An end of a text begins on a line at a column, both counted from one: before it there are so
many ends of lines, and behind the last of them so many characters. -/
def Located (text start : List Char) (line column : Nat) : Prop :=
  ∃ lines onLine, text = lines ++ onLine ++ start ∧ (lines = [] ∨ lines.getLast? = some '\n') ∧
    '\n' ∉ onLine ∧ line = lines.count '\n' + 1 ∧ column = onLine.length + 1

/-- A text is some lines and the beginning of another. -/
theorem exists_lines (before : List Char) :
    ∃ lines, before = lines ++ (before.reverse.takeWhile (· ≠ '\n')).reverse ∧
      (lines = [] ∨ lines.getLast? = some '\n') := by
  refine ⟨(before.reverse.dropWhile (· ≠ '\n')).reverse, ?_, ?_⟩
  · rw [← List.reverse_append, List.takeWhile_append_dropWhile, List.reverse_reverse]
  · rw [List.reverse_eq_nil_iff, List.getLast?_reverse]
    have hhead := List.head?_dropWhile_not (· ≠ '\n') before.reverse
    cases hdrop : before.reverse.dropWhile (· ≠ '\n') with
    | nil => exact .inl rfl
    | cons c tail =>
      rw [hdrop] at hhead
      exact .inr (by simpa using hhead)

theorem located_position {text : List Char} {p : Place} (h : p.start <:+ text) :
    Located text p.start (p.position text).line ((p.position text).column + 1) := by
  obtain ⟨before, rfl⟩ := h
  have hbefore : p.before (before ++ p.start) = before := by
    rw [Place.before, List.length_append, Nat.add_sub_cancel, List.take_left]
  have honLine : '\n' ∉ (before.reverse.takeWhile (· ≠ '\n')).reverse := by
    rw [List.mem_reverse]
    intro hmem
    have hne := List.mem_takeWhile_imp (p := fun c => decide (c ≠ '\n')) hmem
    exact absurd rfl (of_decide_eq_true hne)
  obtain ⟨lines, hlines, hlast⟩ := exists_lines before
  refine ⟨lines, _, by rw [← hlines], hlast, honLine, ?_, ?_⟩
  · have hcount := congrArg (List.count '\n') hlines
    rw [List.count_append, List.count_eq_zero_of_not_mem honLine] at hcount
    rw [Place.position, hbefore, hcount]
  · rw [Place.position, hbefore]

end FrontDoor.Toml
