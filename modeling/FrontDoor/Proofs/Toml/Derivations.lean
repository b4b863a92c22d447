import FrontDoor.Proofs.Toml.Readers
import FrontDoor.Toml.Document
import Mathlib.Data.List.DropRight

/-!
# What a document says

The readers of keys, arrays, tables and documents count down as they go. Here is what they read
without any counting, as relations between a text, what stands at its front and what is left of it.
The length of a text is fuel enough: arrays, tables and documents are read just as they stand
(`skipItems?_eq_some_iff`, `skipMembers?_eq_some_iff`, `readStatementsOnto_eq_some_iff`). Two counts
are meant as bounds, that of the parts of a key and that of the values around a value. A text says
something within such bounds (`Says`), and is read exactly when it does within those of the reader
(`readStatements?_eq_some_iff`, `readEntries?_eq_some_iff`). Bounds only ever refuse (`Says.mono`).
-/

namespace FrontDoor.Toml

variable {parts depth : Nat} {cs rest after : List Char} {v : Value}

/-! ## Keys -/

/-- The parts of a key with dots between them, as many as there are. -/
inductive KeyParts : List Char → List KeyPart → List Char → Prop where
  | last {cs stop : List Char} {name : String} :
      readKeyPart? (skipBlanks cs) = some (name, stop) → (skipBlanks stop).head? ≠ some '.' →
      KeyParts cs [⟨name, skipBlanks cs, stop⟩] (skipBlanks stop)
  | more {cs stop next rest : List Char} {name : String} {ps : List KeyPart} :
      readKeyPart? (skipBlanks cs) = some (name, stop) → skipBlanks stop = '.' :: next →
      KeyParts next ps rest → KeyParts cs (⟨name, skipBlanks cs, stop⟩ :: ps) rest

/-- A key of at most `parts` parts. -/
inductive KeyAt (parts : Nat) (cs : List Char) : Key → List Char → Prop where
  | mk {p : KeyPart} {ps : List KeyPart} {rest : List Char} :
      KeyParts cs (p :: ps) rest → (p :: ps).length ≤ parts →
      KeyAt parts cs
        ⟨p, ((p :: ps).map KeyPart.name).dropLast, ((p :: ps).map KeyPart.name).getLastD ""⟩ rest

theorem readKeyParts?_eq_some_iff {n : Nat} {ps : List KeyPart} :
    readKeyParts? n cs = some (ps, rest) ↔ KeyParts cs ps rest ∧ ps.length ≤ n := by
  constructor
  · intro h
    induction n generalizing cs ps with
    | zero => cases h
    | succ n ih =>
      unfold readKeyParts? at h
      dsimp only at h
      split at h
      · cases h
      · next name stop hpart =>
        split at h
        · next next hdot =>
          obtain ⟨⟨ps', rest'⟩, hmore, h⟩ := Option.map_eq_some_iff.mp h
          cases h
          obtain ⟨hps, hlength⟩ := ih hmore
          exact ⟨.more hpart hdot hps, Nat.succ_le_succ hlength⟩
        · next hdot =>
          cases h
          refine ⟨.last hpart fun hhead => ?_, Nat.le_add_left 1 n⟩
          obtain ⟨next, hnext⟩ := List.head?_eq_some_iff.mp hhead
          exact hdot next hnext
  · rintro ⟨h, hlength⟩
    induction h generalizing n with
    | last hpart hdot =>
      cases n with
      | zero => exact absurd hlength (Nat.not_succ_le_zero _)
      | succ n =>
        simp only [readKeyParts?, hpart]
        split
        · next hnext => exact absurd (congrArg List.head? hnext) hdot
        · rfl
    | more hpart hdot _ ih =>
      cases n with
      | zero => exact absurd hlength (Nat.not_succ_le_zero _)
      | succ n =>
        simp only [readKeyParts?, hpart, hdot, ih (Nat.le_of_succ_le_succ hlength)]
        rfl

theorem readKey?_eq_some_iff {key : Key} :
    readKey? cs = some (key, rest) ↔ KeyAt maxKeyParts cs key rest := by
  constructor
  · intro h
    unfold readKey? at h
    split at h
    · next hparts =>
      cases h
      obtain ⟨hps, hlength⟩ := readKeyParts?_eq_some_iff.mp hparts
      exact .mk hps hlength
    · cases h
  · rintro ⟨hps, hlength⟩
    rw [readKey?, readKeyParts?_eq_some_iff.mpr ⟨hps, hlength⟩]

theorem KeyParts.suffix {ps : List KeyPart} (h : KeyParts cs ps rest) : rest <:+ cs := by
  induction h with
  | @last cs stop name hpart _ =>
    exact (skipBlanks_suffix stop).trans ((readKeyPart?_suffix hpart).trans (skipBlanks_suffix cs))
  | @more cs stop next rest name ps hpart hdot _ ih =>
    have hstop := (skipBlanks_suffix stop).trans
      ((readKeyPart?_suffix hpart).trans (skipBlanks_suffix cs))
    exact ih.trans (suffix_of_eq_cons hdot hstop)

theorem KeyAt.suffix {key : Key} (h : KeyAt parts cs key rest) : rest <:+ cs := by
  obtain ⟨hps, -⟩ := h
  exact hps.suffix

theorem KeyAt.mono {parts' : Nat} {key : Key} (h : KeyAt parts cs key rest)
    (hle : parts ≤ parts') : KeyAt parts' cs key rest := by
  obtain ⟨hps, hlength⟩ := h
  exact .mk hps (hlength.trans hle)

/-- The first character of a part of a key. -/
theorem readKeyPart?_head {c : Char} {name : String}
    (h : readKeyPart? (c :: cs) = some (name, rest)) : c = '"' ∨ c = '\'' ∨ isKeyChar c = true := by
  unfold readKeyPart? at h
  split at h
  · next heq => exact .inl (List.cons.inj heq).1
  · next heq => exact .inr (.inl (List.cons.inj heq).1)
  · refine .inr (.inr ?_)
    cases hc : isKeyChar c with
    | true => rfl
    | false =>
      dsimp only at h
      rw [List.takeWhile_cons_of_neg (by simp [hc])] at h
      cases h

/-- A key begins like its first part. -/
theorem KeyAt.head {c : Char} {tail : List Char} {key : Key} (h : KeyAt parts cs key rest)
    (hc : skipBlanks cs = c :: tail) : c = '"' ∨ c = '\'' ∨ isKeyChar c = true := by
  obtain ⟨hps, -⟩ := h
  cases hps with
  | last hpart _ => exact readKeyPart?_head (hc ▸ hpart)
  | more hpart _ _ => exact readKeyPart?_head (hc ▸ hpart)

/-! ## Arrays and tables -/

/-- The items of an array behind its bracket, up to the one that closes it. A comma may follow the
last of them. -/
inductive Items (item : List Char → List Char → Prop) : List Char → List Char → Prop where
  | close {cs rest : List Char} : skipFiller false cs = ']' :: rest → Items item cs rest
  | last {cs behind rest : List Char} : item (skipFiller false cs) behind →
      skipFiller false behind = ']' :: rest → Items item cs rest
  | more {cs behind next rest : List Char} : item (skipFiller false cs) behind →
      skipFiller false behind = ',' :: next → Items item next rest → Items item cs rest

/-- The members of a table in braces behind those named already, up to the brace that closes it. -/
inductive Members (parts : Nat) (item : List Char → List Char → Prop) :
    Names → List Char → List Char → Prop where
  | last {names names' : Names} {cs value behind rest : List Char} {key : Key} :
      KeyAt parts cs key ('=' :: value) → item (skipBlanks value) behind →
      names.addValue [] key.path key.last = some names' → skipBlanks behind = '\x7d' :: rest →
      Members parts item names cs rest
  | more {names names' : Names} {cs value behind next rest : List Char} {key : Key} :
      KeyAt parts cs key ('=' :: value) → item (skipBlanks value) behind →
      names.addValue [] key.path key.last = some names' → skipBlanks behind = ',' :: next →
      Members parts item names' next rest → Members parts item names cs rest

/-- A value in which values of a kind may stand. -/
inductive Holding (parts : Nat) (item : List Char → List Char → Prop) :
    List Char → Value → List Char → Prop where
  | scalar {cs rest : List Char} {v : Value} : readScalar? cs = some (v, rest) →
      Holding parts item cs v rest
  | array {cs rest : List Char} : Items item cs rest → Holding parts item ('[' :: cs) .array rest
  | empty {cs rest : List Char} : skipBlanks cs = '\x7d' :: rest →
      Holding parts item ('\x7b' :: cs) .table rest
  | table {cs rest : List Char} : Members parts item [] cs rest →
      Holding parts item ('\x7b' :: cs) .table rest

/-- A value, with values at most `depth` deep in it. -/
def ValueAt (parts : Nat) : Nat → List Char → Value → List Char → Prop
  | 0, cs, v, rest => readScalar? cs = some (v, rest)
  | depth + 1, cs, v, rest =>
    Holding parts (fun cs rest => ∃ v, ValueAt parts depth cs v rest) cs v rest

section Items

variable {item : List Char → List Char → Prop}

theorem Items.suffix (hitem : ∀ {cs rest}, item cs rest → rest <:+ cs) (h : Items item cs rest) :
    rest <:+ cs := by
  have hbehind : ∀ {cs behind : List Char}, item (skipFiller false cs) behind →
      skipFiller false behind <:+ cs := fun h =>
    (skipFiller_suffix false _).trans ((hitem h).trans (skipFiller_suffix false _))
  induction h with
  | close hclose => exact suffix_of_eq_cons hclose (skipFiller_suffix false _)
  | last hlast hclose => exact suffix_of_eq_cons hclose (hbehind hlast)
  | more hfirst hcomma _ ih => exact ih.trans (suffix_of_eq_cons hcomma (hbehind hfirst))

theorem Members.suffix (hitem : ∀ {cs rest}, item cs rest → rest <:+ cs) {names : Names}
    (h : Members parts item names cs rest) : rest <:+ cs := by
  have hbehind : ∀ {cs value behind : List Char} {key : Key}, KeyAt parts cs key ('=' :: value) →
      item (skipBlanks value) behind → skipBlanks behind <:+ cs := fun hkey h =>
    (skipBlanks_suffix _).trans ((hitem h).trans ((skipBlanks_suffix _).trans
      ((List.suffix_cons _ _).trans hkey.suffix)))
  induction h with
  | last hkey hvalue _ hclose => exact suffix_of_eq_cons hclose (hbehind hkey hvalue)
  | more hkey hvalue _ hcomma _ ih =>
    exact ih.trans (suffix_of_eq_cons hcomma (hbehind hkey hvalue))

/-- A table that is not empty begins with a key. -/
theorem Members.exists_key {names : Names} (h : Members parts item names cs rest) :
    ∃ key value, KeyAt parts cs key ('=' :: value) := by
  cases h with
  | last hkey => exact ⟨_, _, hkey⟩
  | more hkey => exact ⟨_, _, hkey⟩

end Items

theorem ValueAt.suffix (h : ValueAt parts depth cs v rest) : rest <:+ cs := by
  induction depth generalizing cs v rest with
  | zero => exact readScalar?_suffix h
  | succ depth ih =>
    have hitem : ∀ {cs rest}, (∃ v, ValueAt parts depth cs v rest) → rest <:+ cs :=
      fun ⟨_, h⟩ => ih h
    cases h with
    | scalar h => exact readScalar?_suffix h
    | array h => exact (h.suffix hitem).trans (List.suffix_cons _ _)
    | empty h => exact (suffix_of_eq_cons h (skipBlanks_suffix _)).trans (List.suffix_cons _ _)
    | table h => exact (h.suffix hitem).trans (List.suffix_cons _ _)

section Readers

variable {item : List Char → Option (Value × List Char)}

/-- An array is read just as its items have it, if nothing that closes one is an item. The fuel
lasts when there is more of it than characters. -/
theorem skipItems?_eq_some_iff (hclose : ∀ cs, item (']' :: cs) = none)
    (hitem : ∀ {cs v rest}, item cs = some (v, rest) → rest <:+ cs) {fuel : Nat}
    (hfuel : cs.length < fuel) : skipItems? item fuel cs = some rest ↔
      Items (fun cs rest => ∃ v, item cs = some (v, rest)) cs rest := by
  constructor
  · intro h
    clear hfuel
    induction fuel generalizing cs with
    | zero => cases h
    | succ fuel ih =>
      unfold skipItems? at h
      split at h
      · next hend =>
        cases h
        exact .close hend
      · split at h
        · cases h
        · next hvalue =>
          split at h
          · next hcomma => exact .more ⟨_, hvalue⟩ hcomma (ih h)
          · next hend =>
            cases h
            exact .last ⟨_, hvalue⟩ hend
          · cases h
  · intro h
    induction h generalizing fuel with
    | close hend =>
      obtain ⟨fuel, rfl⟩ := Nat.exists_eq_add_one_of_ne_zero (Nat.ne_zero_of_lt hfuel)
      rw [skipItems?, hend]
      rfl
    | last hlast hend =>
      obtain ⟨fuel, rfl⟩ := Nat.exists_eq_add_one_of_ne_zero (Nat.ne_zero_of_lt hfuel)
      obtain ⟨v, hlast⟩ := hlast
      rw [skipItems?]
      split
      · next hbracket =>
        rw [hbracket, hclose] at hlast
        cases hlast
      · simp only [hlast, hend]
    | @more cs behind next rest hfirst hcomma _ ih =>
      obtain ⟨fuel, rfl⟩ := Nat.exists_eq_add_one_of_ne_zero (Nat.ne_zero_of_lt hfuel)
      obtain ⟨v, hfirst⟩ := hfirst
      have hnext : next.length < fuel := by
        have hcs := (skipFiller_suffix false behind).trans
          ((hitem hfirst).trans (skipFiller_suffix false cs))
        rw [hcomma] at hcs
        exact Nat.lt_of_lt_of_le hcs.length_le (Nat.le_of_lt_succ hfuel)
      rw [skipItems?]
      split
      · next hbracket =>
        rw [hbracket, hclose] at hfirst
        cases hfirst
      · simp only [hfirst, hcomma]
        exact ih hnext

/-- The members of a table are read just as they stand. The fuel lasts when there is more of it than
characters. -/
theorem skipMembers?_eq_some_iff
    (hitem : ∀ {cs v rest}, item cs = some (v, rest) → rest <:+ cs) {fuel : Nat} {names : Names}
    (hfuel : cs.length < fuel) : skipMembers? item fuel names cs = some rest ↔
      Members maxKeyParts (fun cs rest => ∃ v, item cs = some (v, rest)) names cs rest := by
  constructor
  · intro h
    clear hfuel
    induction fuel generalizing names cs with
    | zero => cases h
    | succ fuel ih =>
      unfold skipMembers? at h
      obtain ⟨⟨key, equals⟩, hkey, h⟩ := Option.bind_eq_some_iff.mp h
      obtain ⟨value, hequals, h⟩ := Option.bind_eq_some_iff.mp h
      obtain ⟨⟨v, behind⟩, hvalue, h⟩ := Option.bind_eq_some_iff.mp h
      obtain ⟨names', hnames, h⟩ := Option.bind_eq_some_iff.mp h
      rw [expectChar?_eq_some_iff.mp hequals, readKey?_eq_some_iff] at hkey
      split at h
      · next hcomma => exact .more hkey ⟨v, hvalue⟩ hnames hcomma (ih h)
      · next hend =>
        cases h
        exact .last hkey ⟨v, hvalue⟩ hnames hend
      · cases h
  · intro h
    induction h generalizing fuel with
    | last hkey hvalue hnames hend =>
      obtain ⟨fuel, rfl⟩ := Nat.exists_eq_add_one_of_ne_zero (Nat.ne_zero_of_lt hfuel)
      obtain ⟨v, hvalue⟩ := hvalue
      simp only [skipMembers?, readKey?_eq_some_iff.mpr hkey, expectChar?_cons_self, hvalue, hnames,
        hend, Option.bind_eq_bind, Option.bind_some]
    | @more names names' cs value behind next rest key hkey hvalue hnames hcomma _ ih =>
      obtain ⟨fuel, rfl⟩ := Nat.exists_eq_add_one_of_ne_zero (Nat.ne_zero_of_lt hfuel)
      obtain ⟨v, hvalue⟩ := hvalue
      have hnext : next.length < fuel := by
        have hcs := (skipBlanks_suffix behind).trans ((hitem hvalue).trans
          ((skipBlanks_suffix value).trans ((List.suffix_cons _ _).trans hkey.suffix)))
        rw [hcomma] at hcs
        exact Nat.lt_of_lt_of_le hcs.length_le (Nat.le_of_lt_succ hfuel)
      simp only [skipMembers?, readKey?_eq_some_iff.mpr hkey, expectChar?_cons_self, hvalue, hnames,
        hcomma, Option.bind_eq_bind, Option.bind_some]
      exact ih hnext

end Readers

/-- No scalar begins with a bracket or a brace. -/
theorem readScalar?_of_mem {c : Char} (h : c ∈ ['[', ']', '\x7b']) (cs : List Char) :
    readScalar? (c :: cs) = none := by
  simp only [List.mem_cons, List.not_mem_nil, or_false] at h
  have hdigit : c.isDigit = false := by rcases h with rfl | rfl | rfl <;> decide
  have hfield : ∀ n low high, 0 < n → readField? n low high (c :: cs) = none := by
    intro n low high hn
    obtain ⟨n, rfl⟩ := Nat.exists_eq_add_one_of_ne_zero (Nat.ne_of_gt hn)
    unfold readField?
    rw [List.take_succ_cons]
    simp [hdigit]
  have hdate : skipDateTime? (c :: cs) = none := by
    rw [skipDateTime?, skipDate?, skipTime?, hfield _ _ _ (by decide), hfield _ _ _ (by decide)]
    rfl
  rcases h with rfl | rfl | rfl <;> simp [readScalar?, hdate] <;> rfl

/-- Nothing that closes an array is a value. -/
theorem readValue?_closing (depth : Nat) (cs : List Char) :
    readValue? depth (']' :: cs) = none := by
  cases depth with
  | zero => exact readScalar?_of_mem (by decide) cs
  | succ depth => exact readScalar?_of_mem (c := ']') (by decide) cs

/-- Values are read just as they stand, as deep as it is allowed. -/
theorem readValue?_eq_some_iff :
    readValue? depth cs = some (v, rest) ↔ ValueAt maxKeyParts depth cs v rest := by
  induction depth generalizing cs v rest with
  | zero => rfl
  | succ depth ih =>
    have hitem : ∀ {cs v rest}, readValue? depth cs = some (v, rest) → rest <:+ cs :=
      fun h => (ih.mp h).suffix
    have hitems : ∀ {cs rest}, skipItems? (readValue? depth) (cs.length + 1) cs = some rest ↔
        Items (fun cs rest => ∃ v, ValueAt maxKeyParts depth cs v rest) cs rest := by
      intro cs rest
      rw [skipItems?_eq_some_iff (readValue?_closing depth) hitem (Nat.lt_succ_self _)]
      simp only [ih]
    have hmembers : ∀ {cs rest},
        skipMembers? (readValue? depth) (cs.length + 1) [] cs = some rest ↔
          Members maxKeyParts (fun cs rest => ∃ v, ValueAt maxKeyParts depth cs v rest) [] cs
            rest := by
      intro cs rest
      rw [skipMembers?_eq_some_iff hitem (Nat.lt_succ_self _)]
      simp only [ih]
    constructor
    · intro h
      unfold readValue? at h
      split at h
      · obtain ⟨after, h, hv⟩ := Option.map_eq_some_iff.mp h
        cases hv
        exact .array (hitems.mp h)
      · split at h
        · next hend =>
          cases h
          exact .empty hend
        · obtain ⟨after, h, hv⟩ := Option.map_eq_some_iff.mp h
          cases hv
          exact .table (hmembers.mp h)
      · exact .scalar h
    · intro h
      cases h with
      | scalar h =>
        unfold readValue?
        split
        · rw [readScalar?_of_mem (by decide)] at h
          cases h
        · rw [readScalar?_of_mem (by decide)] at h
          cases h
        · exact h
      | array h =>
        rw [readValue?]
        exact Option.map_eq_some_iff.mpr ⟨_, hitems.mpr h, rfl⟩
      | empty h =>
        rw [readValue?, h]
        rfl
      | table h =>
        rw [readValue?]
        split
        · next hend =>
          obtain ⟨key, value, hkey⟩ := h.exists_key
          exact absurd (hkey.head hend) (by decide)
        · exact Option.map_eq_some_iff.mpr ⟨_, hmembers.mpr h, rfl⟩

/-! ## Statements -/

/-- A statement, and where the next line begins. Keys have at most `parts` parts, and values stand
at most `depth` deep in each other. -/
inductive StatementAt (parts depth : Nat) : List Char → Statement → List Char → Prop where
  | pair {cs value stop after : List Char} {key : Key} {v : Value} :
      KeyAt parts cs key ('=' :: value) → ValueAt parts depth (skipBlanks value) v stop →
      endLine? stop = some after →
      StatementAt parts depth cs (.pair key v ⟨skipBlanks value, stop⟩) after
  | header {cs stop after : List Char} {key : Key} :
      KeyAt parts cs key (']' :: stop) → endLine? stop = some after →
      StatementAt parts depth ('[' :: cs) (.header key ⟨'[' :: cs, stop⟩) after
  | element {cs stop after : List Char} {key : Key} :
      KeyAt parts cs key (']' :: ']' :: stop) → endLine? stop = some after →
      StatementAt parts depth ('[' :: '[' :: cs) (.element key ⟨'[' :: '[' :: cs, stop⟩) after

variable {s : Statement}

theorem readHeader?_eq_some_iff {close : List Char → Option (List Char)} {key : Key} :
    readHeader? close cs = some (key, rest) ↔
      ∃ behind, KeyAt maxKeyParts cs key behind ∧ close behind = some rest := by
  constructor
  · intro h
    obtain ⟨⟨key', behind⟩, hkey, h⟩ := Option.bind_eq_some_iff.mp h
    obtain ⟨rest', hclose, h⟩ := Option.bind_eq_some_iff.mp h
    cases h
    exact ⟨behind, readKey?_eq_some_iff.mp hkey, hclose⟩
  · rintro ⟨behind, hkey, hclose⟩
    simp only [readHeader?, readKey?_eq_some_iff.mpr hkey, hclose, Option.bind_eq_bind,
      Option.bind_some]

/-- Statements are read just as they stand. -/
theorem readStatement?_eq_some_iff :
    readStatement? cs = some (s, after) ↔ StatementAt maxKeyParts maxDepth cs s after := by
  constructor
  · intro h
    unfold readStatement? at h
    split at h
    · obtain ⟨⟨key, stop⟩, hheader, h⟩ := Option.bind_eq_some_iff.mp h
      obtain ⟨after', hend, h⟩ := Option.bind_eq_some_iff.mp h
      cases h
      obtain ⟨behind, hkey, hclose⟩ := readHeader?_eq_some_iff.mp hheader
      obtain ⟨tail, hfirst, hsecond⟩ := Option.bind_eq_some_iff.mp hclose
      rw [expectChar?_eq_some_iff.mp hfirst, expectChar?_eq_some_iff.mp hsecond] at hkey
      exact .element hkey hend
    · obtain ⟨⟨key, stop⟩, hheader, h⟩ := Option.bind_eq_some_iff.mp h
      obtain ⟨after', hend, h⟩ := Option.bind_eq_some_iff.mp h
      cases h
      obtain ⟨behind, hkey, hclose⟩ := readHeader?_eq_some_iff.mp hheader
      rw [expectChar?_eq_some_iff.mp hclose] at hkey
      exact .header hkey hend
    · obtain ⟨⟨key, behind⟩, hkey, h⟩ := Option.bind_eq_some_iff.mp h
      obtain ⟨value, hequals, h⟩ := Option.bind_eq_some_iff.mp h
      obtain ⟨⟨v, stop⟩, hvalue, h⟩ := Option.bind_eq_some_iff.mp h
      obtain ⟨after', hend, h⟩ := Option.bind_eq_some_iff.mp h
      cases h
      rw [expectChar?_eq_some_iff.mp hequals, readKey?_eq_some_iff] at hkey
      exact .pair hkey (readValue?_eq_some_iff.mp hvalue) hend
  · intro h
    cases h with
    | pair hkey hvalue hend =>
      unfold readStatement?
      split
      · exact absurd (hkey.head rfl) (by decide)
      · exact absurd (hkey.head rfl) (by decide)
      · simp only [readKey?_eq_some_iff.mpr hkey, expectChar?_cons_self,
          readValue?_eq_some_iff.mpr hvalue, hend, Option.bind_eq_bind, Option.bind_some]
    | header hkey hend =>
      have hheader := readHeader?_eq_some_iff.mpr ⟨_, hkey, expectChar?_cons_self ']' _⟩
      unfold readStatement?
      split
      · next heq =>
        rw [(List.cons.inj heq).2] at hkey
        exact absurd (hkey.head rfl) (by decide)
      · next heq =>
        cases heq
        simp only [hheader, hend, Option.bind_eq_bind, Option.bind_some]
      · next hnot => exact absurd rfl (hnot _)
    | element hkey hend =>
      have hheader : readHeader? (fun cs => (expectChar? ']' cs).bind (expectChar? ']')) _ = _ :=
        readHeader?_eq_some_iff.mpr ⟨_, hkey, rfl⟩
      simp only [readStatement?, hheader, hend, Option.bind_eq_bind, Option.bind_some]

/-! ## Documents -/

/-- A text that says something, line by line. A line without a statement may hold blanks and a
comment. -/
inductive Says (parts depth : Nat) : List Char → List Statement → Prop where
  | nil : Says parts depth [] []
  | blank {cs after : List Char} {ss : List Statement} : endLine? cs = some after →
      Says parts depth after ss → Says parts depth cs ss
  | statement {cs after : List Char} {s : Statement} {ss : List Statement} :
      StatementAt parts depth (skipBlanks cs) s after → Says parts depth after ss →
      Says parts depth cs (s :: ss)

variable {done ss : List Statement} {fuel : Nat}

theorem skipBlanks_idem (cs : List Char) : skipBlanks (skipBlanks cs) = skipBlanks cs :=
  List.dropWhile_idempotent _ cs

theorem endLine?_of_skipBlanks {c : Char} {tail : List Char} (h : skipBlanks cs = c :: tail) :
    endLine? cs = if c = '#' then endLine? (c :: tail) else newline? (c :: tail) := by
  have hagain : skipBlanks (c :: tail) = c :: tail := h ▸ skipBlanks_idem cs
  split
  · rw [endLine?, endLine?, h, hagain]
  · next hc =>
    unfold endLine?
    rw [h]
    split
    · next heq => exact absurd (List.cons.inj heq).1 hc
    · rfl

/-- No statement begins like a comment or the end of a line. -/
theorem StatementAt.head_ne {c : Char} {tail : List Char}
    (h : StatementAt parts depth (c :: tail) s after) (hc : skipBlanks (c :: tail) = c :: tail) :
    c ≠ '#' ∧ newline? (c :: tail) = none := by
  have hnewline : c ≠ '\n' → c ≠ '\r' → newline? (c :: tail) = none := by
    intro hlf hcr
    unfold newline?
    split
    · next heq => exact absurd (List.cons.inj heq).1 hlf
    · next heq => exact absurd (List.cons.inj heq).1 hcr
    · rfl
  cases h with
  | pair hkey _ _ =>
    have hhead := hkey.head hc
    refine ⟨?_, hnewline ?_ ?_⟩ <;>
      · rintro rfl
        exact absurd hhead (by decide)
  | header _ _ => exact ⟨by decide, rfl⟩
  | element _ _ => exact ⟨by decide, rfl⟩

theorem readStatementsOnto_nil (done : List Statement) (fuel : Nat) :
    readStatementsOnto done fuel [] = some done.reverse := by
  cases fuel <;> rfl

/-- A line is skipped if it holds nothing but blanks and a comment; otherwise it is a statement. -/
theorem readStatementsOnto_succ (done : List Statement) (fuel : Nat) (cs : List Char) :
    readStatementsOnto done (fuel + 1) cs =
      match endLine? cs with
      | some after => readStatementsOnto done fuel after
      | none => (readStatement? (skipBlanks cs)).bind fun r =>
          readStatementsOnto (r.1 :: done) fuel r.2 := by
  rw [readStatementsOnto]
  cases hcs : skipBlanks cs with
  | nil =>
    have hline : endLine? cs = some [] := by
      rw [endLine?, hcs]
      rfl
    rw [hline]
    exact (readStatementsOnto_nil done fuel).symm
  | cons c tail =>
    have hagain : skipBlanks (c :: tail) = c :: tail := hcs ▸ skipBlanks_idem cs
    rw [endLine?_of_skipBlanks hcs]
    by_cases hc : c = '#'
    · have hnone : readStatement? (c :: tail) = none := by
        cases h : readStatement? (c :: tail) with
        | none => rfl
        | some r => exact absurd hc ((readStatement?_eq_some_iff.mp h).head_ne hagain).1
      subst hc
      dsimp only [newline?]
      rw [if_pos rfl, if_pos rfl, hnone]
      rfl
    · dsimp only
      rw [if_neg hc, if_neg hc]
      cases newline? (c :: tail) with
      | some after => rfl
      | none => cases readStatement? (c :: tail) <;> rfl

/-- The line of a statement is not skipped. -/
theorem StatementAt.endLine?_eq_none (h : StatementAt parts depth (skipBlanks cs) s after) :
    endLine? cs = none := by
  cases hcs : skipBlanks cs with
  | nil =>
    rw [hcs] at h
    cases h with
    | pair hkey _ _ => exact absurd hkey.suffix (by simp)
  | cons c tail =>
    rw [hcs] at h
    obtain ⟨hc, hnewline⟩ := h.head_ne (hcs ▸ skipBlanks_idem cs)
    rw [endLine?_of_skipBlanks hcs, if_neg hc, hnewline]

/-- What is left behind a statement is less than the whole, unless the text ends. -/
theorem StatementAt.length_after (h : StatementAt parts depth cs s after) :
    after = [] ∨ after.length < cs.length := by
  have hstop : ∀ {stop : List Char}, endLine? stop = some after → stop <:+ cs →
      after = [] ∨ after.length < cs.length := fun hend hcs =>
    (length_of_endLine? hend).imp_right fun hlt => Nat.lt_of_lt_of_le hlt hcs.length_le
  cases h with
  | pair hkey hvalue hend =>
    exact hstop hend (hvalue.suffix.trans ((skipBlanks_suffix _).trans
      ((List.suffix_cons _ _).trans hkey.suffix)))
  | header hkey hend =>
    exact hstop hend ((List.suffix_cons _ _).trans (hkey.suffix.trans (List.suffix_cons _ _)))
  | element hkey hend =>
    exact hstop hend (.trans ⟨[_, _], rfl⟩ (hkey.suffix.trans ⟨[_, _], rfl⟩))

/-- The statements of a text are read just as it says them. Its length is fuel enough. -/
theorem readStatementsOnto_eq_some_iff {statements : List Statement} (hfuel : cs.length ≤ fuel) :
    readStatementsOnto done fuel cs = some statements ↔
      ∃ ss, statements = done.reverse ++ ss ∧ Says maxKeyParts maxDepth cs ss := by
  constructor
  · intro h
    clear hfuel
    induction fuel generalizing done cs with
    | zero =>
      unfold readStatementsOnto at h
      split at h
      · next hempty =>
        cases h
        exact ⟨[], (List.append_nil _).symm, List.isEmpty_iff.mp hempty ▸ .nil⟩
      · cases h
    | succ fuel ih =>
      rw [readStatementsOnto_succ] at h
      split at h
      · next after hline =>
        obtain ⟨ss, hss, hsaid⟩ := ih h
        exact ⟨ss, hss, .blank hline hsaid⟩
      · obtain ⟨⟨s, after⟩, hread, h⟩ := Option.bind_eq_some_iff.mp h
        obtain ⟨ss, rfl, hsaid⟩ := ih h
        refine ⟨s :: ss, ?_, .statement (readStatement?_eq_some_iff.mp hread) hsaid⟩
        rw [List.reverse_cons, List.append_assoc]
        rfl
  · rintro ⟨ss, rfl, hsaid⟩
    have hrest : ∀ {n fuel : Nat} {after : List Char}, after = [] ∨ after.length < n →
        n ≤ fuel + 1 → after.length ≤ fuel := by
      rintro n fuel after (rfl | hlt) hn
      · exact Nat.zero_le fuel
      · omega
    induction hsaid generalizing done fuel with
    | nil => rw [readStatementsOnto_nil, List.append_nil]
    | blank hline _ ih =>
      cases fuel with
      | zero =>
        obtain rfl := List.eq_nil_of_length_eq_zero (Nat.le_zero.mp hfuel)
        cases hline
        exact ih (Nat.le_refl 0)
      | succ fuel =>
        rw [readStatementsOnto_succ, hline]
        exact ih (hrest (length_of_endLine? hline) hfuel)
    | @statement cs after s ss hs _ ih =>
      have hline := hs.endLine?_eq_none
      cases fuel with
      | zero =>
        obtain rfl := List.eq_nil_of_length_eq_zero (Nat.le_zero.mp hfuel)
        cases hline
      | succ fuel =>
        have hless := hs.length_after.imp_right fun hlt =>
          Nat.lt_of_lt_of_le hlt (skipBlanks_suffix cs).length_le
        rw [readStatementsOnto_succ, hline, readStatement?_eq_some_iff.mpr hs]
        refine (ih (hrest hless hfuel)).trans ?_
        rw [List.reverse_cons, List.append_assoc]
        rfl

/-- **Documents are read just as they stand.** The statements that are read are those that the text
says behind its byte order mark, with keys of at most `maxKeyParts` parts and values that stand at
most `maxDepth` deep in each other. No fuel has a part in it. -/
theorem readStatements?_eq_some_iff {text : List Char} :
    readStatements? text = some ss ↔ Says maxKeyParts maxDepth (skipMark text) ss := by
  rw [readStatements?, readStatementsOnto_eq_some_iff (Nat.le_refl _)]
  constructor
  · rintro ⟨ss, rfl, hsaid⟩
    exact hsaid
  · exact fun hsaid => ⟨ss, rfl, hsaid⟩

/-- The entries of a text are those of the document that its statements make. -/
theorem readEntries?_eq_some_iff {text : List Char} {entries : List Entry} :
    readEntries? text = some entries ↔ ∃ ss d, Says maxKeyParts maxDepth (skipMark text) ss ∧
      Document.ofStatements? ss = some d ∧ d.entries = entries := by
  constructor
  · intro h
    obtain ⟨ss, hread, h⟩ := Option.bind_eq_some_iff.mp h
    obtain ⟨d, hd, h⟩ := Option.bind_eq_some_iff.mp h
    exact ⟨ss, d, readStatements?_eq_some_iff.mp hread, hd, Option.some.inj h⟩
  · rintro ⟨ss, d, hsaid, hd, rfl⟩
    rw [readEntries?, readStatements?_eq_some_iff.mpr hsaid]
    simp only [Option.bind_eq_bind, Option.bind_some, hd]

/-! ## Bounds -/

section Mono

variable {parts' depth' : Nat} {item item' : List Char → List Char → Prop}

theorem Items.mono (hitem : ∀ {cs rest}, item cs rest → item' cs rest) (h : Items item cs rest) :
    Items item' cs rest := by
  induction h with
  | close hend => exact .close hend
  | last hlast hend => exact .last (hitem hlast) hend
  | more hfirst hcomma _ ih => exact .more (hitem hfirst) hcomma ih

variable (hparts : parts ≤ parts')
include hparts

theorem Members.mono (hitem : ∀ {cs rest}, item cs rest → item' cs rest) {names : Names}
    (h : Members parts item names cs rest) : Members parts' item' names cs rest := by
  induction h with
  | last hkey hvalue hnames hend => exact .last (hkey.mono hparts) (hitem hvalue) hnames hend
  | more hkey hvalue hnames hcomma _ ih =>
    exact .more (hkey.mono hparts) (hitem hvalue) hnames hcomma ih

theorem ValueAt.mono (hdepth : depth ≤ depth') (h : ValueAt parts depth cs v rest) :
    ValueAt parts' depth' cs v rest := by
  induction depth' generalizing depth cs v rest with
  | zero =>
    obtain rfl := Nat.le_zero.mp hdepth
    exact h
  | succ depth' ih =>
    cases depth with
    | zero => exact .scalar h
    | succ depth =>
      have hitem : ∀ {cs rest}, (∃ v, ValueAt parts depth cs v rest) →
          ∃ v, ValueAt parts' depth' cs v rest :=
        fun ⟨v, h⟩ => ⟨v, ih (Nat.le_of_succ_le_succ hdepth) h⟩
      cases h with
      | scalar h => exact .scalar h
      | array h => exact .array (h.mono hitem)
      | empty h => exact .empty h
      | table h => exact .table (h.mono hparts hitem)

theorem StatementAt.mono (hdepth : depth ≤ depth') (h : StatementAt parts depth cs s after) :
    StatementAt parts' depth' cs s after := by
  cases h with
  | pair hkey hvalue hend => exact .pair (hkey.mono hparts) (hvalue.mono hparts hdepth) hend
  | header hkey hend => exact .header (hkey.mono hparts) hend
  | element hkey hend => exact .element (hkey.mono hparts) hend

/-- What a text says within some bounds it says within wider ones: bounds only ever refuse. -/
theorem Says.mono (hdepth : depth ≤ depth') (h : Says parts depth cs ss) :
    Says parts' depth' cs ss := by
  induction h with
  | nil => exact .nil
  | blank hline _ ih => exact .blank hline ih
  | statement hs _ ih => exact .statement (hs.mono hparts hdepth) ih

end Mono

end FrontDoor.Toml
