import FrontDoor.Proofs.Toml.Places

/-!
# Which statement an entry comes from

Of the statements of a document those before the first header and the headers themselves are about
its top level (`tops`). Each puts an entry at the end unless there is one of its name, and the
header of a table of its own puts it there in any case. This is all that happens to the entries but
that they come to end later (`heads_of_readEntries?`), so each of them stands where one statement of
the text has its mark, and they come in the order in which they stand there
(`entriesOf_of_readEntries?`).
-/

namespace FrontDoor.Toml

/-- An entry without its end: its name, its value and where it begins. -/
structure Head where
  name : String
  value : Value
  start : List Char
  deriving DecidableEq

def Entry.head (e : Entry) : Head := ⟨e.name, e.value, e.place.start⟩

namespace Statement

/-- A key with its value, which is no header. -/
def isPair : Statement → Bool
  | .pair _ _ _ => true
  | .header _ _ | .element _ _ => false

/-- The header of a table at the top level. -/
def isOwnHeader : Statement → Bool
  | .header key _ => key.path.isEmpty
  | .pair _ _ _ | .element _ _ => false

/-- The name that a statement gives at the top level, when it is about that. -/
def name (s : Statement) : String := s.key.first.name

/-- What a statement gives the first name of its key. -/
def given : Statement → Value
  | .pair key v _ => if key.path.isEmpty then v else .table
  | .header _ _ => .table
  | .element key _ => if key.path.isEmpty then .array else .table

def head (s : Statement) : Head := ⟨s.name, s.given, s.mark.start⟩

end Statement

/-- The statements about the top level: pairs until the first header, and all headers. -/
def tops (inTable : Bool) : List Statement → List Statement
  | [] => []
  | s :: ss =>
    if s.isPair then if inTable then tops true ss else s :: tops false ss
    else s :: tops true ss

theorem tops_sublist (inTable : Bool) (ss : List Statement) : (tops inTable ss).Sublist ss := by
  induction ss generalizing inTable with
  | nil => exact .slnil
  | cons s ss ih =>
    unfold tops
    split
    · split
      · exact .cons s (ih true)
      · exact .cons_cons s (ih false)
    · exact .cons_cons s (ih true)

/-- What a statement about the top level does to the entries. -/
def put (heads : List Head) (s : Statement) : List Head :=
  if s.isOwnHeader then heads.filter (·.name != s.name) ++ [s.head]
  else if s.name ∈ heads.map Head.name then heads
  else heads ++ [s.head]

/-! ## Entries as they are put -/

namespace Names

variable {names names' : Names} {way : List String} {key : String} {table : TablePath}

theorem openTable_ne_nil (h : names.openTable way key = some (names', table)) : table ≠ [] := by
  obtain ⟨⟨names₁, outer⟩, -, h⟩ := Option.bind_eq_some_iff.mp h
  dsimp only at h
  split at h <;> cases h <;> exact List.cons_ne_nil _ _

theorem openElement_ne_nil (h : names.openElement way key = some (names', table)) :
    table ≠ [] := by
  obtain ⟨⟨names₁, outer⟩, -, h⟩ := Option.bind_eq_some_iff.mp h
  dsimp only at h
  split at h <;> cases h <;> exact List.cons_ne_nil _ _

end Names

namespace Document

theorem heads_extendEntry (entries : List Entry) (name : String) (stop : List Char) :
    (extendEntry entries name stop).map Entry.head = entries.map Entry.head := by
  rw [extendEntry, List.map_map]
  refine List.map_congr_left fun e _ => ?_
  rw [Function.comp_apply]
  split <;> rfl

theorem names_heads (entries : List Entry) :
    (entries.map Entry.head).map Head.name = entries.map Entry.name := List.map_map

theorem heads_addEntry {entries : List Entry} {e : Entry} {s : Statement} (he : e.head = s.head)
    (hs : s.isOwnHeader = false) :
    (addEntry entries e).map Entry.head = put (entries.map Entry.head) s := by
  have hname : e.name = s.name := congrArg Head.name he
  have hentry : hasEntry entries e.name = true ↔ s.name ∈ entries.map Entry.name := by
    simp [hasEntry, hname]
  unfold addEntry put
  rw [if_neg (Bool.eq_false_iff.mp hs), names_heads]
  by_cases hmem : s.name ∈ entries.map Entry.name
  · rw [if_pos (hentry.mpr hmem), if_pos hmem]
  · rw [if_neg (mt hentry.mp hmem), if_neg hmem, List.map_append, List.map_singleton, he]

theorem heads_moveEntry {entries : List Entry} {e : Entry} {s : Statement} (he : e.head = s.head)
    (hs : s.isOwnHeader = true) :
    (moveEntry entries e).map Entry.head = put (entries.map Entry.head) s := by
  have hname : e.name = s.name := congrArg Head.name he
  unfold moveEntry put
  rw [if_pos hs, List.map_append, List.map_singleton, he, List.filter_map, hname]
  rfl

theorem heads_concat {entries : List Entry} {e : Entry} {s : Statement} (he : e.head = s.head)
    (hs : s.isOwnHeader = false) (hnew : s.name ∉ entries.map Entry.name) :
    (entries ++ [e]).map Entry.head = put (entries.map Entry.head) s := by
  rw [put, if_neg (Bool.eq_false_iff.mp hs), names_heads, if_neg hnew, List.map_append,
    List.map_singleton, he]

theorem heads_touchEntry (entries : List Entry) {s : Statement} (h : s.key.path ≠ []) :
    (touchEntry entries s.key.first).map Entry.head = put (entries.map Entry.head) s := by
  have hempty : ¬s.key.path.isEmpty = true := mt List.isEmpty_iff.mp h
  have hgiven : s.given = .table := by
    cases s with
    | pair key v place => exact if_neg hempty
    | header key place => rfl
    | element key place => exact if_neg hempty
  have hheader : s.isOwnHeader = false := by
    cases s with
    | pair | element => rfl
    | header key place => exact Bool.eq_false_iff.mpr hempty
  refine heads_addEntry ?_ hheader
  rw [Statement.head, hgiven, Statement.mark_of_ne_nil h]
  rfl

/-- A statement with a single name is about this name. -/
theorem head_of_nil {s : Statement} (hs : s.key.Whole) (h : s.key.path = []) :
    s.head = ⟨s.key.last, s.given, s.place.start⟩ ∧ s.name = s.key.last := by
  have hname : s.name = s.key.last := by
    rw [Statement.name, hs, h]
    rfl
  exact ⟨by rw [Statement.head, Statement.mark_of_nil h, hname], hname⟩

/-- A pair is put, unless it is within a table. -/
theorem heads_step_pair {d d' : Document} (hd : Distinct d.names d.entries) {key : Key} {v : Value}
    {place : Place} (hs : key.Whole) (h : d.step (.pair key v place) = some d') :
    d'.entries.map Entry.head =
        (if d.table.isEmpty then put (d.entries.map Entry.head) (.pair key v place)
          else d.entries.map Entry.head) ∧
      d'.table = d.table := by
  obtain ⟨names, hnames, hd'⟩ := Option.bind_eq_some_iff.mp h
  cases hd'
  refine ⟨?_, rfl⟩
  cases htable : d.table with
  | nil =>
    rw [htable] at hnames
    refine .trans ?_ (if_pos rfl).symm
    dsimp only
    split
    · next hempty =>
      have hpath := List.isEmpty_iff.mp hempty
      obtain ⟨hhead, hname⟩ := head_of_nil (s := .pair key v place) hs hpath
      have hgiven : (Statement.pair key v place).given = v := if_pos hempty
      have hfree := (Names.addValue_spec hnames).2.2 hpath
      refine heads_concat (by rw [hhead, hgiven]; rfl) rfl ?_
      rw [hname]
      exact fun hmem => hfree (hd.taken _ hmem)
    · next hempty =>
      exact heads_touchEntry d.entries (s := .pair key v place) (mt List.isEmpty_iff.mpr hempty)
  | cons name table =>
    cases d.openEntry with
    | none => rfl
    | some name => exact heads_extendEntry d.entries name place.stop

/-- A header is put, and opens a table. -/
theorem heads_step_header {d d' : Document} {s : Statement} (hpair : s.isPair = false)
    (hs : s.key.Whole) (h : d.step s = some d') :
    d'.entries.map Entry.head = put (d.entries.map Entry.head) s ∧ d'.table ≠ [] := by
  cases s with
  | pair => cases hpair
  | header key place =>
    obtain ⟨⟨names, table⟩, hnames, hd'⟩ := Option.bind_eq_some_iff.mp h
    have htable : table ≠ [] := Names.openTable_ne_nil hnames
    dsimp only at hd'
    split at hd' <;> cases hd'
    · next hempty =>
      obtain ⟨hhead, -⟩ := head_of_nil (s := .header key place) hs (List.isEmpty_iff.mp hempty)
      exact ⟨heads_moveEntry hhead.symm hempty, htable⟩
    · next hempty =>
      exact ⟨heads_touchEntry d.entries (s := .header key place) (mt List.isEmpty_iff.mpr hempty),
        htable⟩
  | element key place =>
    obtain ⟨⟨names, table⟩, hnames, hd'⟩ := Option.bind_eq_some_iff.mp h
    have htable : table ≠ [] := Names.openElement_ne_nil hnames
    dsimp only at hd'
    split at hd' <;> cases hd'
    · next hempty =>
      obtain ⟨hhead, -⟩ := head_of_nil (s := .element key place) hs (List.isEmpty_iff.mp hempty)
      have hgiven : (Statement.element key place).given = .array := if_pos hempty
      rw [heads_extendEntry]
      exact ⟨heads_addEntry (by rw [hhead, hgiven]; rfl) rfl, htable⟩
    · next hempty =>
      exact ⟨heads_touchEntry d.entries (s := .element key place) (mt List.isEmpty_iff.mpr hempty),
        htable⟩

/-- The entries of a document are what the statements about the top level put there. -/
theorem heads_foldlM {d d' : Document} (hd : Distinct d.names d.entries) {ss : List Statement}
    (hs : ∀ s ∈ ss, s.key.Whole) (h : ss.foldlM step d = some d') :
    d'.entries.map Entry.head =
      (tops (!d.table.isEmpty) ss).foldl put (d.entries.map Entry.head) := by
  induction ss generalizing d with
  | nil =>
    cases h
    rfl
  | cons s ss ih =>
    rw [List.foldlM_cons] at h
    obtain ⟨d₁, hstep, hrest⟩ := Option.bind_eq_some_iff.mp h
    have hwhole := hs s List.mem_cons_self
    have hmore := ih (hd.step hwhole hstep) (fun s' hs' => hs s' (List.mem_cons_of_mem s hs')) hrest
    rw [hmore]
    cases s with
    | pair key v place =>
      obtain ⟨hheads, htable⟩ := heads_step_pair hd hwhole hstep
      rw [hheads, htable]
      cases d.table with
      | nil => rfl
      | cons name table => rfl
    | header key place =>
      obtain ⟨hheads, htable⟩ := heads_step_header rfl hwhole hstep
      rw [hheads, List.isEmpty_eq_false_iff.mpr htable]
      rfl
    | element key place =>
      obtain ⟨hheads, htable⟩ := heads_step_header rfl hwhole hstep
      rw [hheads, List.isEmpty_eq_false_iff.mpr htable]
      rfl

end Document

/-! ## What is put where -/

/-- Which statement an entry comes from: the last header of its own, or else the first statement
that gives its name. -/
structure Origin (front : List Statement) (s : Statement) (back : List Statement) : Prop where
  no_header : ∀ s' ∈ back, s'.name = s.name → s'.isOwnHeader = false
  first : s.isOwnHeader = false → ∀ s' ∈ front, s'.name ≠ s.name

theorem mem_put_iff {heads : List Head} {s : Statement} {h : Head} :
    h ∈ put heads s ↔
      (h ∈ heads ∧ (s.isOwnHeader = true → h.name ≠ s.name)) ∨
        h = s.head ∧ (s.isOwnHeader = false → s.name ∉ heads.map Head.name) := by
  unfold put
  cases s.isOwnHeader with
  | true => simp
  | false =>
    by_cases hname : s.name ∈ heads.map Head.name
    · rw [if_neg Bool.false_ne_true, if_pos hname]
      simp [hname]
    · rw [if_neg Bool.false_ne_true, if_neg hname]
      simp [hname]

theorem mem_names_put {heads : List Head} {s : Statement} {name : String} :
    name ∈ (put heads s).map Head.name ↔ name ∈ heads.map Head.name ∨ name = s.name := by
  simp only [List.mem_map, mem_put_iff]
  constructor
  · rintro ⟨h, ⟨hmem, -⟩ | ⟨rfl, -⟩, rfl⟩
    · exact .inl ⟨h, hmem, rfl⟩
    · exact .inr rfl
  · intro hname
    by_cases hs : name = s.name
    · by_cases hkept : s.isOwnHeader = false ∧ s.name ∈ heads.map Head.name
      · obtain ⟨h, hmem, hh⟩ := List.mem_map.mp hkept.2
        exact ⟨h, .inl ⟨hmem, fun hheader => absurd hheader (Bool.eq_false_iff.mp hkept.1)⟩,
          hh.trans hs.symm⟩
      · exact ⟨s.head, .inr ⟨rfl, fun hheader => by simpa [hheader] using hkept⟩, hs.symm⟩
    · obtain ⟨h, hmem, rfl⟩ := hname.resolve_right hs
      exact ⟨h, .inl ⟨hmem, fun _ => hs⟩, rfl⟩

theorem mem_names_foldl_put {ts : List Statement} {name : String} :
    name ∈ (ts.foldl put []).map Head.name ↔ ∃ s ∈ ts, s.name = name := by
  induction ts using List.reverseRecOn with
  | nil => simp
  | append_singleton ts s ih =>
    rw [List.foldl_append, List.foldl_cons, List.foldl_nil, mem_names_put, ih]
    simp [or_and_right, exists_or, eq_comm]

theorem exists_origin {ts : List Statement} {h : Head} (hmem : h ∈ ts.foldl put []) :
    ∃ front s back, ts = front ++ s :: back ∧ h = s.head ∧ Origin front s back := by
  induction ts using List.reverseRecOn generalizing h with
  | nil => exact absurd hmem List.not_mem_nil
  | append_singleton ts s ih =>
    rw [List.foldl_append, List.foldl_cons, List.foldl_nil, mem_put_iff] at hmem
    rcases hmem with ⟨hold, hkept⟩ | ⟨rfl, hnew⟩
    · obtain ⟨front, s', back, rfl, rfl, horigin⟩ := ih hold
      refine ⟨front, s', back ++ [s], by simp, rfl, ?_, horigin.first⟩
      intro s'' hs'' hname
      rcases List.mem_append.mp hs'' with hs'' | hs''
      · exact horigin.no_header s'' hs'' hname
      · obtain rfl := List.mem_singleton.mp hs''
        exact Bool.eq_false_iff.mpr fun hheader => hkept hheader hname.symm
    · refine ⟨ts, s, [], rfl, rfl, fun s' hs' => absurd hs' List.not_mem_nil, ?_⟩
      intro hheader s' hs' hname
      exact hnew hheader (mem_names_foldl_put.mpr ⟨s', hs', hname⟩)

/-- The entries come in the order in which they stand in the text. -/
theorem pairwise_foldl_put {ts : List Statement}
    (hts : ts.Pairwise fun s s' => s'.mark.start.length < s.mark.start.length) :
    (ts.foldl put []).Pairwise fun h h' => h'.start.length < h.start.length := by
  induction ts using List.reverseRecOn with
  | nil => exact .nil
  | append_singleton ts s ih =>
    obtain ⟨hfront, -, hlast⟩ := List.pairwise_append.mp hts
    have hsorted := ih hfront
    have hlater : ∀ h ∈ ts.foldl put [], s.head.start.length < h.start.length := by
      intro h hh
      obtain ⟨front, s', back, rfl, rfl, -⟩ := exists_origin hh
      exact hlast s' (by simp) s List.mem_cons_self
    rw [List.foldl_append, List.foldl_cons, List.foldl_nil]
    unfold put
    split
    · refine List.pairwise_append.mpr ⟨hsorted.filter _, List.pairwise_singleton _ _, ?_⟩
      intro h hh h' hh'
      obtain rfl := List.mem_singleton.mp hh'
      exact hlater h (List.mem_of_mem_filter hh)
    · split
      · exact hsorted
      · refine List.pairwise_append.mpr ⟨hsorted, List.pairwise_singleton _ _, ?_⟩
        intro h hh h' hh'
        obtain rfl := List.mem_singleton.mp hh'
        exact hlater h hh

/-! ## The entries of a text -/

theorem heads_of_readEntries? {text : List Char} {entries : List Entry}
    (h : readEntries? text = some entries) :
    ∃ statements, readStatements? text = some statements ∧
      entries.map Entry.head = (tops false statements).foldl put [] := by
  obtain ⟨statements, d, hsaid, hd, rfl⟩ := readEntries?_eq_some_iff.mp h
  exact ⟨statements, readStatements?_eq_some_iff.mpr hsaid,
    Document.heads_foldlM .start hsaid.whole hd⟩

/-- An entry of a text comes from a statement about the top level, and stands where this has its
mark. -/
structure Entry.From (text : List Char) (e : Entry) (s : Statement) : Prop where
  origin : ∃ statements front back, readStatements? text = some statements ∧
    tops false statements = front ++ s :: back ∧ Origin front s back
  name : e.name = s.name
  value : e.value = s.given
  start : e.place.start = s.mark.start
  suffix : e.place.start <:+ text
  shown : s.Shown

/-- A place begins before another in the same text. -/
def Place.Precedes (p q : Place) : Prop := ∃ between, between ≠ [] ∧ p.start = between ++ q.start

/-- What the entries of a text are: one for each name that a statement about the top level gives,
each from one of these statements, in the order in which they stand. -/
structure EntriesOf (text : List Char) (entries : List Entry) : Prop where
  nodup : (entries.map Entry.name).Nodup
  named : ∀ statements, readStatements? text = some statements →
    ∀ s ∈ tops false statements, s.name ∈ entries.map Entry.name
  origin : ∀ e ∈ entries, ∃ s, e.From text s
  sorted : entries.Pairwise fun e e' => e.place.Precedes e'.place

theorem entriesOf_of_readEntries? {text : List Char} {entries : List Entry}
    (h : readEntries? text = some entries) : EntriesOf text entries := by
  obtain ⟨statements, hread, hheads⟩ := heads_of_readEntries? h
  have hsaid := readStatements?_eq_some_iff.mp hread
  have hfrom : ∀ e ∈ entries, ∃ s, e.From text s := by
    intro e he
    have hmem : e.head ∈ (tops false statements).foldl put [] := by
      rw [← hheads]
      exact List.mem_map_of_mem he
    obtain ⟨front, s, back, hsplit, hhead, horigin⟩ := exists_origin hmem
    have hs : s ∈ statements := (tops_sublist false statements).subset (by rw [hsplit]; simp)
    obtain ⟨hname, hvalue, hstart⟩ := Head.mk.inj hhead
    obtain ⟨hmark, hshown⟩ := hsaid.readIn s hs
    exact ⟨s, ⟨statements, front, back, hread, hsplit, horigin⟩, hname, hvalue, hstart,
      hstart ▸ hmark.trans (skipMark_suffix text), hshown⟩
  refine ⟨nodup_of_readEntries? h, ?_, hfrom, ?_⟩
  · intro statements' hread' s hs
    obtain rfl := Option.some.inj (hread.symm.trans hread')
    rw [← Document.names_heads, hheads]
    exact mem_names_foldl_put.mpr ⟨s, hs, rfl⟩
  · have hsorted := pairwise_foldl_put (hsaid.pairwise.sublist (tops_sublist false statements))
    rw [← hheads, List.pairwise_map] at hsorted
    refine hsorted.imp_of_mem fun {e e'} he he' hlength => ?_
    obtain ⟨s, hs⟩ := hfrom e he
    obtain ⟨s', hs'⟩ := hfrom e' he'
    obtain ⟨between, hbetween⟩ :=
      List.suffix_of_suffix_length_le hs'.suffix hs.suffix (Nat.le_of_lt hlength)
    refine ⟨between, ?_, hbetween.symm⟩
    rintro rfl
    rw [List.nil_append] at hbetween
    have heq := congrArg List.length hbetween
    exact absurd hlength (Nat.not_lt.mpr (Nat.le_of_eq heq.symm))

end FrontDoor.Toml
