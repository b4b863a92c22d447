import FrontDoor.Metrics.Exposition
import Mathlib.Data.List.Basic

/-!
# Reading an exposition text

A reader of the format takes a text apart again: lines, the name of a sample, its labels with their
escapes undone, its value. It is given the characters alone, and gets back what was written
(`read?_text`), whatever quotes, backslashes and newlines stand in the label values.
-/

namespace FrontDoor.Exposition

/-- A line of an exposition text, taken apart. -/
inductive Line where
  | comment (text : String)
  | sample (name : String) (labels : List (String × String)) (value : String)
  deriving DecidableEq

def Line.text : Line → String
  | .comment t => "# " ++ t ++ "\n"
  | .sample name labels value => Exposition.sample name labels value

/-! ## The reader -/

/-- The character that an escape stands for. -/
def unescape? (c : Char) : Option Char :=
  if c = '\\' then some '\\' else if c = 'n' then some '\n' else if c = '"' then some '"' else none

/-- What stands up to a closing quote, with its escapes undone, and what follows the quote. -/
def readQuoted? : List Char → Option (List Char × List Char)
  | [] => none
  | '"' :: rest => some ([], rest)
  | ['\\'] => none
  | '\\' :: c :: rest =>
    match unescape? c, readQuoted? rest with
    | some c, some (cs, rest) => some (c :: cs, rest)
    | _, _ => none
  | c :: rest => (readQuoted? rest).map fun (cs, rest) => (c :: cs, rest)

/-- A label and what follows it. -/
def readLabel? (cs : List Char) : Option ((String × String) × List Char) :=
  match cs.dropWhile (· ≠ '=') with
  | '=' :: '"' :: rest =>
    (readQuoted? rest).map fun (value, rest) =>
      ((String.ofList (cs.takeWhile (· ≠ '=')), String.ofList value), rest)
  | _ => none

theorem length_of_readQuoted? {cs value rest : List Char}
    (h : readQuoted? cs = some (value, rest)) : rest.length < cs.length := by
  fun_induction readQuoted? cs generalizing value with
  | case1 => cases h
  | case2 rest' => cases h; exact Nat.lt_succ_self _
  | case3 => cases h
  | case4 c rest' d value' rest'' hvalue hc ih =>
    cases h
    exact Nat.lt_succ_of_lt (Nat.lt_succ_of_lt (ih hvalue))
  | case5 => cases h
  | case6 c rest' hquote hlone hescape ih =>
    obtain ⟨p, hp, hpair⟩ := Option.map_eq_some_iff.mp h
    cases hpair
    exact Nat.lt_succ_of_lt (ih hp)

theorem length_of_readLabel? {cs rest : List Char} {label : String × String}
    (h : readLabel? cs = some (label, rest)) : rest.length < cs.length := by
  unfold readLabel? at h
  split at h
  · next quoted hdrop =>
    obtain ⟨⟨value, rest'⟩, hvalue, hpair⟩ := Option.map_eq_some_iff.mp h
    cases hpair
    have hquoted := length_of_readQuoted? hvalue
    have hcs := (List.dropWhile_suffix (l := cs) (· ≠ '=')).length_le
    rw [hdrop, List.length_cons, List.length_cons] at hcs
    omega
  · cases h

/-- The labels behind an opening brace, and what follows the closing one. -/
def readLabels? (cs : List Char) : Option (List (String × String) × List Char) :=
  match h : readLabel? cs with
  | some (label, '\x7d' :: rest) => some ([label], rest)
  | some (label, ',' :: rest) =>
    have : rest.length < cs.length := Nat.lt_of_succ_lt (length_of_readLabel? h)
    (readLabels? rest).map fun (labels, rest) => (label :: labels, rest)
  | _ => none
termination_by cs.length

/-- Whether a character belongs to the name of a sample. -/
def isOfName (c : Char) : Bool := c ≠ '\x7b' && c ≠ ' '

def readSample? (cs : List Char) : Option Line :=
  let name := String.ofList (cs.takeWhile isOfName)
  match cs.dropWhile isOfName with
  | ' ' :: value => some (.sample name [] (String.ofList value))
  | '\x7b' :: rest =>
    match readLabels? rest with
    | some (labels, ' ' :: value) => some (.sample name labels (String.ofList value))
    | _ => none
  | _ => none

def readLine? : List Char → Option Line
  | '#' :: ' ' :: text => some (.comment (String.ofList text))
  | cs => readSample? cs

/-- The lines of a text, without the newlines that end them. -/
def breakLines : List Char → List (List Char)
  | [] => []
  | c :: rest =>
    if c = '\n' then [] :: breakLines rest
    else
      match breakLines rest with
      | [] => [[c]]
      | line :: lines => (c :: line) :: lines

def read? (text : String) : Option (List Line) := (breakLines text.toList).mapM readLine?

/-! ## What was written -/

theorem readQuoted?_escape (value rest : List Char) :
    readQuoted? (value.flatMap labelEscape ++ '"' :: rest) = some (value, rest) := by
  induction value with
  | nil => rfl
  | cons c value ih =>
    rw [List.flatMap_cons, List.append_assoc]
    by_cases hquote : c = '"'
    · subst hquote
      simp [labelEscape, readQuoted?, unescape?, ih]
    by_cases hbackslash : c = '\\'
    · subst hbackslash
      simp [labelEscape, helpEscape, readQuoted?, unescape?, ih]
    by_cases hnewline : c = '\n'
    · subst hnewline
      simp [labelEscape, helpEscape, readQuoted?, unescape?, ih]
    · simp [labelEscape, helpEscape, hquote, hbackslash, hnewline, readQuoted?, ih]

/-- No character of a plain text means anything by itself in an exposition text. -/
def Plain (s : String) : Prop := ∀ c ∈ ['\n', ' ', '#', '=', '\x7b'], c ∉ s.toList

instance (s : String) : Decidable (Plain s) :=
  List.decidableBAll (fun c => c ∉ s.toList) _

/-- The characters of a label. -/
def labelChars (l : String × String) : List Char :=
  l.1.toList ++ '=' :: '"' :: (l.2.toList.flatMap labelEscape ++ ['"'])

theorem toList_labelsText {labels : List (String × String)} (h : labels ≠ []) :
    (labelsText labels).toList =
      '\x7b' :: ([','].intercalate (labels.map labelChars) ++ ['\x7d']) := by
  have hchars : ∀ l : String × String,
      (l.1 ++ "=\"" ++ escapeWith labelEscape l.2 ++ "\"").toList = labelChars l := by
    intro l
    simp [labelChars, escapeWith]
  rw [labelsText, if_neg (by simpa using h)]
  simp [String.toList_intercalate, hchars, Function.comp_def]

theorem readLabel?_chars {l : String × String} (h : Plain l.1) (rest : List Char) :
    readLabel? (labelChars l ++ rest) = some (l, rest) := by
  have hname : ∀ c ∈ l.1.toList, decide (c ≠ '=') = true := by
    rintro c hc
    simp only [decide_eq_true_eq]
    rintro rfl
    exact h '=' (by simp) hc
  have hchars : labelChars l ++ rest =
      l.1.toList ++ '=' :: '"' :: (l.2.toList.flatMap labelEscape ++ '"' :: rest) := by
    simp [labelChars]
  rw [readLabel?, hchars, List.dropWhile_append_of_pos hname, List.takeWhile_append_of_pos hname]
  simp [readQuoted?_escape]

theorem readLabels?_close {cs rest : List Char} {label : String × String}
    (h : readLabel? cs = some (label, '\x7d' :: rest)) : readLabels? cs = some ([label], rest) := by
  rw [readLabels?]
  split <;> simp_all

theorem readLabels?_comma {cs rest : List Char} {label : String × String}
    (h : readLabel? cs = some (label, ',' :: rest)) :
    readLabels? cs = (readLabels? rest).map fun (labels, rest) => (label :: labels, rest) := by
  rw [readLabels?]
  split <;> simp_all

theorem readLabels?_chars {labels : List (String × String)} (hlabels : labels ≠ [])
    (h : ∀ l ∈ labels, Plain l.1) (rest : List Char) :
    readLabels? ([','].intercalate (labels.map labelChars) ++ '\x7d' :: rest) =
      some (labels, rest) := by
  induction labels with
  | nil => exact absurd rfl hlabels
  | cons l labels ih =>
    have hl := h l (by simp)
    cases labels with
    | nil =>
      rw [List.map_singleton, List.intercalate_singleton]
      exact readLabels?_close (readLabel?_chars hl _)
    | cons l' labels =>
      have hrest := ih (by simp) fun l'' hl'' => h l'' (by simp [hl''])
      rw [List.map_cons] at hrest ⊢
      rw [List.map_cons, List.intercalate_cons_cons, List.append_assoc, List.append_assoc,
        List.singleton_append, readLabels?_comma (readLabel?_chars hl _), hrest]
      rfl

/-- Labels that differ are written differently. -/
theorem labelsText_injective {labels labels' : List (String × String)}
    (h : ∀ l ∈ labels, Plain l.1) (h' : ∀ l ∈ labels', Plain l.1)
    (heq : labelsText labels = labelsText labels') : labels = labels' := by
  have hempty : ∀ {labels : List (String × String)}, labelsText labels = labelsText [] →
      labels = [] := by
    intro labels heq
    by_contra hnone
    have hlists := congrArg String.toList heq
    rw [toList_labelsText hnone] at hlists
    simp [labelsText] at hlists
  by_cases hnone : labels = []
  · subst hnone
    exact (hempty heq.symm).symm
  by_cases hnone' : labels' = []
  · subst hnone'
    exact hempty heq
  have hlists := congrArg String.toList heq
  rw [toList_labelsText hnone, toList_labelsText hnone', List.cons.injEq] at hlists
  have hread := readLabels?_chars hnone h []
  rw [hlists.2, readLabels?_chars hnone' h' []] at hread
  exact (congrArg Prod.fst (Option.some.inj hread)).symm

/-- Whether a line can be told from its characters. -/
def Line.Legible : Line → Prop
  | .comment t => '\n' ∉ t.toList
  | .sample name labels value => Plain name ∧ (∀ l ∈ labels, Plain l.1) ∧ '\n' ∉ value.toList

/-- The characters of a line without the newline that ends it. -/
def Line.chars : Line → List Char
  | .comment t => '#' :: ' ' :: t.toList
  | .sample name labels value => name.toList ++ (labelsText labels).toList ++ ' ' :: value.toList

theorem Line.toList_text (line : Line) : line.text.toList = line.chars ++ ['\n'] := by
  cases line with
  | comment t => simp [text, chars]
  | sample name labels value => simp [text, chars, Exposition.sample]

theorem readSample?_chars {name : String} {labels : List (String × String)} {value : String}
    (hname : Plain name) (hlabels : ∀ l ∈ labels, Plain l.1) :
    readSample? (Line.sample name labels value).chars = some (.sample name labels value) := by
  have hisOfName : ∀ c ∈ name.toList, isOfName c = true := by
    intro c hc
    simp only [isOfName, Bool.and_eq_true, decide_eq_true_eq]
    exact ⟨fun heq => hname c (by simp [heq]) hc, fun heq => hname c (by simp [heq]) hc⟩
  rw [readSample?, Line.chars, List.append_assoc, List.dropWhile_append_of_pos hisOfName,
    List.takeWhile_append_of_pos hisOfName]
  by_cases hnone : labels = []
  · subst hnone
    simp [labelsText, isOfName]
  · rw [toList_labelsText hnone]
    simp [isOfName, readLabels?_chars hnone hlabels]

theorem head?_chars_sample {name : String} (hname : Plain name) (labels : List (String × String))
    (value : String) : (Line.sample name labels value).chars.head? ≠ some '#' := by
  have hhash := hname '#' (by simp)
  cases hchars : name.toList with
  | cons c cs =>
    rw [hchars] at hhash
    simp only [Line.chars, hchars, List.cons_append, List.head?_cons]
    exact fun heq => hhash (by simp [Option.some.inj heq])
  | nil =>
    by_cases hnone : labels = []
    · subst hnone
      simp [Line.chars, hchars, labelsText]
    · simp [Line.chars, hchars, toList_labelsText hnone]

theorem readLine?_chars {line : Line} (h : line.Legible) : readLine? line.chars = some line := by
  cases line with
  | comment t => simp [Line.chars, readLine?]
  | sample name labels value =>
    obtain ⟨hname, hlabels, -⟩ := h
    rw [readLine?]
    · exact readSample?_chars hname hlabels
    · intro text htext
      exact head?_chars_sample hname labels value (congrArg List.head? htext)

theorem mem_or_mem_of_mem_intercalate {α : Type} {sep : List α} {ls : List (List α)} {x : α}
    (h : x ∈ sep.intercalate ls) : x ∈ sep ∨ ∃ l ∈ ls, x ∈ l := by
  induction ls with
  | nil => simp [List.intercalate] at h
  | cons l ls ih =>
    cases ls with
    | nil => exact .inr ⟨l, by simp, by simpa using h⟩
    | cons l' ls =>
      rw [List.intercalate_cons_cons, List.append_assoc, List.mem_append, List.mem_append] at h
      rcases h with h | h | h
      · exact .inr ⟨l, by simp, h⟩
      · exact .inl h
      · rcases ih h with h | ⟨m, hm, h⟩
        · exact .inl h
        · exact .inr ⟨m, by simp [hm], h⟩

theorem newline_not_mem_labelsText {labels : List (String × String)}
    (h : ∀ l ∈ labels, Plain l.1) : '\n' ∉ (labelsText labels).toList := by
  have hescape : ∀ c, '\n' ∉ labelEscape c := by
    intro c
    unfold labelEscape helpEscape
    split_ifs with hquote hbackslash hnewline
    · decide
    · decide
    · decide
    · exact fun hmem => hnewline (List.mem_singleton.mp hmem).symm
  have hlabel : ∀ l ∈ labels, '\n' ∉ labelChars l := by
    intro l hl hmem
    have hname := h l hl '\n' (by simp)
    simp [labelChars, hname, hescape] at hmem
  by_cases hnone : labels = []
  · subst hnone
    exact List.not_mem_nil
  · rw [toList_labelsText hnone]
    intro hmem
    simp only [List.mem_cons, List.mem_append, List.not_mem_nil, Char.reduceEq, false_or,
      or_false] at hmem
    rcases mem_or_mem_of_mem_intercalate hmem with hcomma | ⟨cs, hcs, hmem⟩
    · simp at hcomma
    · obtain ⟨l, hl, rfl⟩ := List.mem_map.mp hcs
      exact hlabel l hl hmem

theorem newline_not_mem_chars {line : Line} (h : line.Legible) : '\n' ∉ line.chars := by
  cases line with
  | comment t =>
    have ht : '\n' ∉ t.toList := h
    simp [Line.chars, ht]
  | sample name labels value =>
    obtain ⟨hname, hlabels, hvalue⟩ := h
    have hname := hname '\n' (by simp)
    simp [Line.chars, hname, hvalue, newline_not_mem_labelsText hlabels]

theorem breakLines_append {line : List Char} (h : '\n' ∉ line) (rest : List Char) :
    breakLines (line ++ '\n' :: rest) = line :: breakLines rest := by
  induction line with
  | nil => simp [breakLines]
  | cons c line ih =>
    rw [List.mem_cons, not_or] at h
    rw [List.cons_append, breakLines, if_neg (Ne.symm h.1), ih h.2]

/-- Reading a text yields the lines that were written. -/
theorem read?_text {lines : List Line} (h : ∀ line ∈ lines, line.Legible) :
    read? (String.join (lines.map Line.text)) = some lines := by
  rw [read?, String.toList_join]
  induction lines with
  | nil => rfl
  | cons line lines ih =>
    have hline := h line (by simp)
    rw [List.map_cons, List.flatMap_cons, Line.toList_text, List.append_assoc,
      List.singleton_append, breakLines_append (newline_not_mem_chars hline), List.mapM_cons,
      readLine?_chars hline, ih fun l hl => h l (by simp [hl])]
    rfl

end FrontDoor.Exposition
