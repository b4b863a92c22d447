import FrontDoor.Proofs.Toml.Derivations

/-!
# The entries of a TOML document

A document gives each of its top-level names once (`nodup_of_readEntries?`): the names of its
entries are different, and each of them is taken, so that no value can be given to it again
(`Document.Distinct`).
-/

namespace FrontDoor.Toml

/-! ## Names are only ever added -/

namespace Names

/-- Whether something holds a name. -/
def Taken (names : Names) (path : TablePath) : Prop := (names.holder? path).isSome = true

/-- Whatever was taken is taken. -/
def Extends (names names' : Names) : Prop := ∀ path, names.Taken path → names'.Taken path

variable {names names' : Names} {path : TablePath}

theorem Extends.rfl : names.Extends names := fun _ h => h

theorem Extends.trans {names'' : Names} (h : names.Extends names') (h' : names'.Extends names'') :
    names.Extends names'' := fun path hpath => h' path (h path hpath)

theorem taken_put (names : Names) (path : TablePath) (holder : Holder) :
    (names.put path holder).Taken path := by
  simp [Taken, holder?, put]

theorem extends_put (names : Names) (path : TablePath) (holder : Holder) :
    names.Extends (names.put path holder) := by
  intro path' h
  unfold Taken holder? put at *
  rw [List.lookup_cons]
  split
  · rfl
  · exact h

/-- Going down makes the first table on the way if it is missing. -/
theorem descend_spec {byDots : Bool} {inner : TablePath} {way : List String}
    (h : names.descend byDots path way = some (names', inner)) :
    names.Extends names' ∧ (∀ name ∈ way.head?, names'.Taken ((name, 0) :: path)) ∧
      (way = [] → inner = path) := by
  induction way generalizing names path with
  | nil =>
    cases h
    exact ⟨.rfl, by simp, fun _ => rfl⟩
  | cons name rest ih =>
    -- Further down it is enough that the first table is there already.
    have hrest : ∀ {names₁ path₁}, names₁.descend byDots path₁ rest = some (names', inner) →
        names.Extends names₁ → names₁.Taken ((name, 0) :: path) →
        names.Extends names' ∧ (∀ n ∈ (name :: rest).head?, names'.Taken ((n, 0) :: path)) ∧
          (name :: rest = [] → inner = path) := by
      intro names₁ path₁ h₁ hextends htaken
      have hmore := (ih h₁).1
      refine ⟨hextends.trans hmore, fun n hn => ?_, fun hnil => by cases hnil⟩
      cases hn
      exact hmore _ htaken
    unfold descend at h
    dsimp only at h
    cases hholder : names.holder? ((name, 0) :: path) with
    | none =>
      rw [hholder] at h
      exact hrest h (extends_put _ _ _) (taken_put _ _ _)
    | some holder =>
      have htaken : names.Taken ((name, 0) :: path) := by
        rw [Taken, hholder]
        rfl
      rw [hholder] at h
      cases holder with
      | value => cases h
      | tables count => exact hrest h .rfl htaken
      | headed =>
        cases byDots with
        | true => cases h
        | false => exact hrest h .rfl htaken
      | implied | dotted => exact hrest h .rfl htaken

/-- A name that is given at the end of the way: then the first name of all is taken, be it that of a
table on the way or the last. -/
theorem put_spec {byDots : Bool} {inner : TablePath} {way : List String} (key : String)
    (h : names.descend byDots path way = some (names', inner)) (holder : Holder) :
    names.Extends (names'.put ((key, 0) :: inner) holder) ∧
      (names'.put ((key, 0) :: inner) holder).Taken ((way.headD key, 0) :: path) := by
  obtain ⟨hextends, hfirst, hinner⟩ := descend_spec h
  refine ⟨hextends.trans (extends_put _ _ _), ?_⟩
  cases way with
  | nil =>
    rw [hinner rfl]
    exact taken_put _ _ _
  | cons name rest => exact extends_put _ _ _ _ (hfirst name rfl)

theorem addValue_spec {way : List String} {key : String}
    (h : names.addValue path way key = some names') :
    names.Extends names' ∧ names'.Taken ((way.headD key, 0) :: path) ∧
      (way = [] → ¬names.Taken ((key, 0) :: path)) := by
  unfold addValue at h
  obtain ⟨⟨names₁, inner⟩, hdescend, h⟩ := Option.bind_eq_some_iff.mp h
  obtain ⟨hextends, htaken⟩ := put_spec key hdescend .value
  dsimp only at h
  split at h
  · cases h
  · split at h
    · cases h
    · next hfree =>
      cases h
      refine ⟨hextends, htaken, ?_⟩
      rintro rfl
      cases hdescend
      exact hfree

theorem openTable_spec {way : List String} {key : String} {table : TablePath}
    (h : names.openTable way key = some (names', table)) :
    names.Extends names' ∧ names'.Taken [(way.headD key, 0)] := by
  unfold openTable at h
  obtain ⟨⟨names₁, outer⟩, hdescend, h⟩ := Option.bind_eq_some_iff.mp h
  dsimp only at h
  split at h <;> cases h <;> exact put_spec key hdescend _

theorem openElement_spec {way : List String} {key : String} {table : TablePath}
    (h : names.openElement way key = some (names', table)) :
    names.Extends names' ∧ names'.Taken [(way.headD key, 0)] := by
  unfold openElement at h
  obtain ⟨⟨names₁, outer⟩, hdescend, h⟩ := Option.bind_eq_some_iff.mp h
  dsimp only at h
  split at h <;> cases h <;> exact put_spec key hdescend _

end Names

/-! ## Keys -/

/-- The key that a statement gives a name by. -/
def Statement.key : Statement → Key
  | .pair key _ _ | .header key _ | .element key _ => key

/-- The first part of a key names a table on the way, or what the key is about. -/
def Key.Whole (key : Key) : Prop := key.first.name = key.path.headD key.last

theorem KeyAt.whole {parts : Nat} {cs rest : List Char} {key : Key}
    (h : KeyAt parts cs key rest) : key.Whole := by
  obtain @⟨p, ps, rest, -, -⟩ := h
  cases ps <;> rfl

theorem StatementAt.whole {parts depth : Nat} {cs after : List Char} {s : Statement}
    (h : StatementAt parts depth cs s after) : s.key.Whole := by
  cases h with
  | pair hkey _ _ | header hkey _ | element hkey _ => exact hkey.whole

theorem Says.whole {parts depth : Nat} {cs : List Char} {ss : List Statement}
    (h : Says parts depth cs ss) : ∀ s ∈ ss, s.key.Whole := by
  induction h with
  | nil => exact fun s hs => absurd hs List.not_mem_nil
  | blank _ _ ih => exact ih
  | statement hs _ ih => exact List.forall_mem_cons.mpr ⟨hs.whole, ih⟩

/-! ## Entries are given once -/

namespace Document

/-- The entries have different names, and each of them is taken. -/
structure Distinct (names : Names) (entries : List Entry) : Prop where
  nodup : (entries.map Entry.name).Nodup
  taken : ∀ name ∈ entries.map Entry.name, names.Taken [(name, 0)]

namespace Distinct

variable {names names' : Names} {entries : List Entry}

theorem start : Distinct Document.start.names Document.start.entries where
  nodup := List.nodup_nil
  taken name h := by cases h

theorem mono (hd : Distinct names entries) (h : names.Extends names') :
    Distinct names' entries where
  nodup := hd.nodup
  taken name hname := h _ (hd.taken name hname)

theorem concat (hd : Distinct names entries) {e : Entry} (htaken : names.Taken [(e.name, 0)])
    (hfree : e.name ∉ entries.map Entry.name) : Distinct names (entries ++ [e]) where
  nodup := by
    rw [List.map_append, List.nodup_append]
    refine ⟨hd.nodup, by simp, fun a ha b hb hab => ?_⟩
    obtain rfl := List.mem_singleton.mp hb
    exact hfree (hab ▸ ha)
  taken name hname := by
    rw [List.map_append] at hname
    rcases List.mem_append.mp hname with h | h
    · exact hd.taken name h
    · exact List.mem_singleton.mp h ▸ htaken

theorem addEntry (hd : Distinct names entries) {e : Entry} (htaken : names.Taken [(e.name, 0)]) :
    Distinct names (addEntry entries e) := by
  unfold Document.addEntry
  split
  · exact hd
  · next h =>
    refine hd.concat htaken fun hmem => h ?_
    simpa [hasEntry] using hmem

theorem moveEntry (hd : Distinct names entries) {e : Entry} (htaken : names.Taken [(e.name, 0)]) :
    Distinct names (moveEntry entries e) := by
  have hsub := (List.filter_sublist (l := entries) (p := (·.name != e.name))).map Entry.name
  unfold Document.moveEntry
  apply concat ⟨hd.nodup.sublist hsub, fun name h => hd.taken name (hsub.subset h)⟩ htaken
  simp

theorem extendEntry (hd : Distinct names entries) (name : String) (stop : List Char) :
    Distinct names (extendEntry entries name stop) := by
  have hnames : (Document.extendEntry entries name stop).map Entry.name =
      entries.map Entry.name := by
    unfold Document.extendEntry
    rw [List.map_map]
    apply List.map_congr_left
    intro e he
    rw [Function.comp_apply]
    split <;> rfl
  exact ⟨hnames ▸ hd.nodup, hnames ▸ hd.taken⟩

/-- A statement opens the entry of its key, or leads into one; a value is given to a free name. -/
theorem step {d d' : Document} (hd : Distinct d.names d.entries) {s : Statement}
    (hs : s.key.Whole) (h : d.step s = some d') : Distinct d'.names d'.entries := by
  cases s with
  | pair key value place =>
    have hfirst : key.first.name = key.path.headD key.last := hs
    obtain ⟨names, hnames, hd'⟩ := Option.bind_eq_some_iff.mp h
    obtain ⟨hextends, htaken, hfree⟩ := Names.addValue_spec hnames
    have hmore := hd.mono hextends
    cases hd'
    dsimp only
    split
    · next htable =>
      rw [htable] at htaken hfree
      split
      · next hpath =>
        have hnil := List.isEmpty_iff.mp hpath
        rw [hnil] at htaken
        exact hmore.concat htaken fun hmem => hfree hnil (hd.taken _ hmem)
      · exact hmore.addEntry (hfirst ▸ htaken)
    · exact hmore.extendEntry _ _
    · exact hmore
  | header key place =>
    have hfirst : key.first.name = key.path.headD key.last := hs
    obtain ⟨⟨names, table⟩, hnames, hd'⟩ := Option.bind_eq_some_iff.mp h
    obtain ⟨hextends, htaken⟩ := Names.openTable_spec hnames
    have hmore := hd.mono hextends
    dsimp only at hd'
    split at hd' <;> cases hd'
    · next hpath =>
      rw [List.isEmpty_iff.mp hpath] at htaken
      exact hmore.moveEntry htaken
    · exact hmore.addEntry (hfirst ▸ htaken)
  | element key place =>
    have hfirst : key.first.name = key.path.headD key.last := hs
    obtain ⟨⟨names, table⟩, hnames, hd'⟩ := Option.bind_eq_some_iff.mp h
    obtain ⟨hextends, htaken⟩ := Names.openElement_spec hnames
    have hmore := hd.mono hextends
    dsimp only at hd'
    split at hd' <;> cases hd'
    · next hpath =>
      rw [List.isEmpty_iff.mp hpath] at htaken
      exact (hmore.addEntry htaken).extendEntry _ _
    · exact hmore.addEntry (hfirst ▸ htaken)

theorem foldlM {d d' : Document} (hd : Distinct d.names d.entries) {statements : List Statement}
    (hs : ∀ s ∈ statements, s.key.Whole) (h : statements.foldlM Document.step d = some d') :
    Distinct d'.names d'.entries := by
  induction statements generalizing d with
  | nil =>
    cases h
    exact hd
  | cons s statements ih =>
    rw [List.foldlM_cons] at h
    obtain ⟨d₁, hstep, hrest⟩ := Option.bind_eq_some_iff.mp h
    exact ih (hd.step (hs s List.mem_cons_self) hstep)
      (fun s' hs' => hs s' (List.mem_cons_of_mem s hs')) hrest

end Distinct

end Document

/-- Every top-level name of a document is given once. -/
theorem nodup_of_readEntries? {text : List Char} {entries : List Entry}
    (h : readEntries? text = some entries) : (entries.map Entry.name).Nodup := by
  obtain ⟨ss, d, hsaid, hd, rfl⟩ := readEntries?_eq_some_iff.mp h
  exact (Document.Distinct.start.foldlM hsaid.whole hd).nodup

end FrontDoor.Toml
