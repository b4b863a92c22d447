import FrontDoor.CommandLine.Reading
import Mathlib.Data.List.Forall2
import Mathlib.Data.List.TakeDrop
import Mathlib.Data.List.TakeWhile

/-!
# How options are spelled

An option may be spelled in several ways, and a value in a word of its own is taken in only when the
next option comes up. Nevertheless the words of some options, one after the other, do what the
options do, one after the other: they give the same flags, or are refused for the same reason
(`readAll_spelled`).
-/

namespace FrontDoor.CommandLine

/-! ## Words -/

namespace Word

/-- A value that may stand in a word of its own: it begins with no dash, or is a dash alone. -/
def StandsAlone (value : String) : Prop := value = "-" ∨ ∀ c ∈ value.toList.head?, c ≠ '-'

theorem ofString_of_standsAlone {value : String} (h : StandsAlone value) :
    ofString value = .plain value := by
  rcases h with rfl | h
  · rfl
  · unfold ofString
    split
    · next heq => exact absurd rfl (h '-' (by rw [heq]; rfl))
    · next heq => exact absurd rfl (h '-' (by rw [heq]; rfl))
    · rfl
    · next heq => exact absurd rfl (h '-' (by rw [heq]; rfl))
    · rfl

section Name

variable {name : List Char} (h : '=' ∉ name)
include h

theorem noEquals : ∀ c ∈ name, decide (c ≠ '=') = true := by
  intro c hc
  exact decide_eq_true fun heq => h (heq ▸ hc)

/-- A name without an equals sign ends where the first one stands. -/
theorem splitValue_append (value : List Char) :
    splitValue (name ++ '=' :: value) = (String.ofList name, some (String.ofList value)) := by
  have hspan : (name ++ '=' :: value).span (· ≠ '=') = (name, '=' :: value) := by
    rw [List.span_eq_takeWhile_dropWhile, List.takeWhile_append_of_pos (noEquals h),
      List.dropWhile_append_of_pos (noEquals h)]
    simp
  rw [splitValue, hspan]

theorem splitValue_of_not_mem : splitValue name = (String.ofList name, none) := by
  have hspan : name.span (· ≠ '=') = (name, []) := by
    rw [List.span_eq_takeWhile_dropWhile, List.takeWhile_eq_self_iff.mpr (noEquals h),
      List.dropWhile_eq_nil_iff.mpr (noEquals h)]
  rw [splitValue, hspan]

end Name

/-- What two dashes stand in front of is a long option, if it is anything at all. -/
theorem ofString_dashes {cs : List Char} (hne : cs ≠ []) :
    ofString ("--" ++ String.ofList cs) = .long (splitValue cs).1 (splitValue cs).2 := by
  have hlist : ("--" ++ String.ofList cs).toList = '-' :: '-' :: cs := by simp
  obtain ⟨c, rest, rfl⟩ := List.exists_cons_of_ne_nil hne
  unfold ofString
  rw [hlist]
  rfl

theorem ofString_long {name : String} (hne : name ≠ "") (h : '=' ∉ name.toList) :
    ofString ("--" ++ name) = .long name none := by
  have hlong := @ofString_dashes name.toList (by simpa using hne)
  rwa [splitValue_of_not_mem h, String.ofList_toList] at hlong

theorem ofString_long_value {name : String} (h : '=' ∉ name.toList) (value : String) :
    ofString ("--" ++ name ++ "=" ++ value) = .long name (some value) := by
  have hsplit : "--" ++ name ++ "=" ++ value =
      "--" ++ String.ofList (name.toList ++ '=' :: value.toList) := by
    rw [← String.toList_inj]
    simp
  rw [hsplit, ofString_dashes (by simp), splitValue_append h, String.ofList_toList,
    String.ofList_toList]

theorem ofString_cluster {letter : Char} (h : letter ≠ '-') (rest : List Char) :
    ofString (String.ofList ('-' :: letter :: rest)) = .cluster (letter :: rest) := by
  unfold ofString
  rw [String.toList_ofList]
  split <;> simp_all

end Word

/-! ## Options as they are given -/

variable {α : Type}

/-- A value is taken when none was, when it is none that is missing, and when it is accepted. -/
theorem ValueOption.give_eq_ok_iff {o : ValueOption α} {text : String} {flags flags' : α} :
    o.give (some text) flags = .ok flags' ↔
      o.given flags = false ∧ (text = "" → o.mayBeEmpty = true) ∧
        o.accept text flags = .ok flags' := by
  unfold give
  dsimp only
  split
  · next hgiven => simp [hgiven]
  · next hgiven =>
    have hfree : o.given flags = false := Bool.eq_false_iff.mpr hgiven
    split
    · next hmissing =>
      have hneeded : o.mayBeEmpty = false := by simpa using hmissing.2
      simp [hmissing.1, hneeded]
    · next hmissing =>
      have hvalue : text = "" → o.mayBeEmpty = true := by simpa using hmissing
      rw [hfree, and_iff_right rfl, and_iff_right hvalue]
      cases o.accept text flags <;> simp [Except.mapError]

/-- An option as it is given: with its value, if it takes one. -/
inductive Given (α : Type) where
  | value (o : ValueOption α) (text : String)
  | switch (o : Switch α)

namespace Given

def opt : Given α → Opt α
  | value o _ => .value o
  | switch o => .switch o

/-- The flags with an option given to them. -/
def put : Given α → α → Except Refusal α
  | value o text, flags => o.give (some text) flags
  | switch o, flags => o.give flags

/-- The flags with some options given to them, one after the other. -/
def putAll (gs : List (Given α)) (flags : α) : Except Refusal α :=
  gs.foldlM (fun flags g => g.put flags) flags

/-- The words that an option is given with. Behind its letter a value must not begin with an equals
sign, which would be taken for the sign between the two. -/
inductive Spelled : Given α → List String → Prop where
  | attached {o : ValueOption α} {text : String} :
      Spelled (.value o text) ["--" ++ o.spelling.long ++ "=" ++ text]
  | apart {o : ValueOption α} {text : String} : Word.StandsAlone text →
      Spelled (.value o text) ["--" ++ o.spelling.long, text]
  | short {o : ValueOption α} {text : String} {letter : Char} : o.spelling.short? = some letter →
      Word.StandsAlone text → Spelled (.value o text) [String.ofList ['-', letter], text]
  | glued {o : ValueOption α} {text : String} {letter : Char} : o.spelling.short? = some letter →
      text ≠ "" → (∀ c ∈ text.toList.head?, c ≠ '=') →
      Spelled (.value o text) [String.ofList ('-' :: letter :: text.toList)]
  | switch {o : Switch α} : Spelled (.switch o) ["--" ++ o.spelling.long]
  | shortSwitch {o : Switch α} {letter : Char} : o.spelling.short? = some letter →
      Spelled (.switch o) [String.ofList ['-', letter]]

end Given

/-- Options among which one is found by its names, and which names cannot be mistaken. -/
structure Known (opts : List (Opt α)) (o : Opt α) : Prop where
  long : Opt.ofLong? opts o.spelling.long = some o
  short : ∀ letter, o.spelling.short? = some letter → Opt.ofShort? opts letter = some o
  name : o.spelling.long ≠ "" ∧ '=' ∉ o.spelling.long.toList
  letter : o.spelling.short? ≠ some '-'

namespace Reading

/-- What has been read comes to the same flags, or to the same refusal. A refusal may still wait for
the value that it is about to be looked at. -/
inductive ComesTo (result : Except Refusal α) : Except Stop (Reading α) → Prop where
  | waiting {r : Reading α} : r.ended = false → r.settled = result → ComesTo result (.ok r)
  | refused {e : Refusal} : result = .error e → ComesTo result (.error (.refused e))

variable {r : Reading α} {opts : List (Opt α)} {stray : String → Refusal}

theorem gluedValue?_toList {text : String} (hne : text ≠ "")
    (htext : ∀ c ∈ text.toList.head?, c ≠ '=') : gluedValue? text.toList = some text := by
  unfold gluedValue?
  split
  · next hnil => exact absurd (by simpa using hnil) hne
  · next heq => exact absurd rfl (htext '=' (by rw [heq]; rfl))
  · rw [String.ofList_toList]

/-! ### One option -/

section TakeOption

variable (hr : r.ended = false)
include hr

/-- Flags that have been given something, with nothing left to be looked at. -/
theorem comesTo_settled (result : Except Refusal α) :
    ComesTo result ((result.map fun flags => { r with flags := flags, pending? := none }).mapError
      .refused) := by
  cases result with
  | error e => exact .refused rfl
  | ok flags => exact .waiting hr rfl

theorem comesTo_takeOption_value (o : ValueOption α) (text : String) :
    ComesTo (r.settled.bind (Given.value o text).put) (r.takeOption (.value o) (some text)) := by
  have htake : r.takeOption (.value o) (some text) =
      ((r.settled.bind (Given.value o text).put).map fun flags =>
        { r with flags := flags, pending? := none }).mapError .refused := by
    unfold takeOption takeValue
    cases r.settled <;> rfl
  rw [htake]
  exact comesTo_settled hr _

theorem comesTo_takeOption_switch (o : Switch α) :
    ComesTo (r.settled.bind (Given.switch o).put) (r.takeOption (.switch o) none) := by
  have htake : r.takeOption (.switch o) none =
      ((r.settled.bind (Given.switch o).put).map fun flags =>
        { r with flags := flags, pending? := none }).mapError .refused := by
    unfold takeOption takeSwitch
    cases r.settled <;> rfl
  rw [htake]
  exact comesTo_settled hr _

/-! ### The words of one option -/

theorem take_eq (text : String) :
    take opts stray r text =
      match Word.ofString text with
      | .endOfOptions => .ok { r with ended := true }
      | .long name value? =>
        match Opt.ofLong? opts name with
        | none => .error (.refused (.unknownArgument ("--" ++ name)))
        | some o => r.takeOption o value?
      | .cluster letters => takeCluster opts r letters
      | .plain text => r.takePlain stray text := by
  rw [take, hr]
  rfl

theorem take_long {o : Opt α} {name : String} (ho : Known opts o) (hname : o.spelling.long = name) :
    take opts stray r ("--" ++ name) = r.takeOption o none := by
  subst hname
  rw [take_eq hr, Word.ofString_long ho.name.1 ho.name.2]
  simp only [ho.long]

theorem take_long_value {o : Opt α} {name : String} (ho : Known opts o)
    (hname : o.spelling.long = name) (text : String) :
    take opts stray r ("--" ++ name ++ "=" ++ text) = r.takeOption o (some text) := by
  subst hname
  rw [take_eq hr, Word.ofString_long_value ho.name.2]
  simp only [ho.long]

theorem take_short {o : Opt α} {letter : Char} (ho : Known opts o)
    (hletter : o.spelling.short? = some letter) (rest : List Char) :
    take opts stray r (String.ofList ('-' :: letter :: rest)) =
      takeCluster opts r (letter :: rest) := by
  have hdash : letter ≠ '-' := by
    rintro rfl
    exact ho.letter hletter
  rw [take_eq hr, Word.ofString_cluster hdash]

/-- A value that stands alone is taken in by the option in front of it. -/
theorem comesTo_takeOption_apart (o : ValueOption α) {text : String}
    (htext : Word.StandsAlone text) :
    ComesTo (r.settled.bind (Given.value o text).put)
      ((r.takeOption (.value o) none).bind (take opts stray · text)) := by
  unfold takeOption takeValue
  cases hsettled : r.settled with
  | error e => exact .refused rfl
  | ok flags =>
    have htake : take opts stray { r with flags := flags, pending? := some (o, none) } text =
        .ok { r with flags := flags, pending? := some (o, some text) } := by
      rw [take_eq (r := { r with flags := flags, pending? := some (o, none) }) hr,
        Word.ofString_of_standsAlone htext]
      rfl
    simp only [bind, Except.bind, pure, Except.pure, Except.mapError, htake]
    exact .waiting hr rfl

theorem take_letter {o : ValueOption α} {letter : Char} (ho : Known opts (.value o))
    (hletter : o.spelling.short? = some letter) (rest : List Char) :
    take opts stray r (String.ofList ('-' :: letter :: rest)) =
      r.takeOption (.value o) (gluedValue? rest) := by
  rw [take_short hr ho hletter, takeCluster, ho.short letter hletter]

theorem take_letter_switch {o : Switch α} {letter : Char} (ho : Known opts (.switch o))
    (hletter : o.spelling.short? = some letter) :
    take opts stray r (String.ofList ['-', letter]) = r.takeOption (.switch o) none := by
  rw [take_short hr ho hletter, takeCluster, ho.short letter hletter]
  dsimp only
  cases r.takeOption (.switch o) none <;> rfl

/-- The words of an option give it to the flags. -/
theorem comesTo_spelled {g : Given α} {words : List String} (hg : Known opts g.opt)
    (hwords : g.Spelled words) :
    ComesTo (r.settled.bind g.put) (words.foldlM (take opts stray) r) := by
  have hvalue : ∀ {o : ValueOption α} {text : String},
      (Given.value o text).opt.spelling.long = o.spelling.long := rfl
  have hswitch : ∀ {o : Switch α}, (Given.switch o).opt.spelling.long = o.spelling.long := rfl
  cases hwords with
  | @attached o text =>
    rw [List.foldlM_cons, take_long_value hr hg hvalue]
    simp only [List.foldlM_nil, bind_pure]
    exact comesTo_takeOption_value hr o text
  | @apart o text htext =>
    rw [List.foldlM_cons, take_long hr hg hvalue]
    simp only [List.foldlM_cons, List.foldlM_nil, bind_pure]
    exact comesTo_takeOption_apart hr o htext
  | @short o text letter hletter htext =>
    rw [List.foldlM_cons, take_letter hr hg hletter]
    simp only [List.foldlM_cons, List.foldlM_nil, bind_pure]
    exact comesTo_takeOption_apart hr o htext
  | @glued o text letter hletter hne htext =>
    rw [List.foldlM_cons, take_letter hr hg hletter, gluedValue?_toList hne htext]
    simp only [List.foldlM_nil, bind_pure]
    exact comesTo_takeOption_value hr o text
  | @switch o =>
    rw [List.foldlM_cons, take_long hr hg hswitch]
    simp only [List.foldlM_nil, bind_pure]
    exact comesTo_takeOption_switch hr o
  | @shortSwitch o letter hletter =>
    rw [List.foldlM_cons, take_letter_switch hr hg hletter]
    simp only [List.foldlM_nil, bind_pure]
    exact comesTo_takeOption_switch hr o

end TakeOption

/-! ### All words -/

/-- The words of some options give them to the flags, one after the other. -/
theorem comesTo_flatten {gs : List (Given α)} {words : List (List String)}
    (hgs : ∀ g ∈ gs, Known opts g.opt) (hwords : List.Forall₂ Given.Spelled gs words)
    (hr : r.ended = false) :
    ComesTo (r.settled.bind (Given.putAll gs))
      (words.flatten.foldlM (take opts stray) r) := by
  -- By induction on the options. What one of them leaves to be looked at is all that the next one
  -- needs to know of it, so the reading in front of them may be any that goes on.
  induction hwords generalizing r with
  | nil =>
    refine .waiting hr ?_
    cases r.settled <;> rfl
  | @cons g group gs words hgroup _ ih =>
    have hfirst : ComesTo _ (group.foldlM (take opts stray) r) :=
      comesTo_spelled hr (hgs g List.mem_cons_self) hgroup
    have hassoc : r.settled.bind (Given.putAll (g :: gs)) =
        (r.settled.bind g.put).bind (Given.putAll gs) := by
      cases r.settled <;> rfl
    rw [List.flatten_cons, List.foldlM_append, hassoc]
    cases hread : group.foldlM (take opts stray) r with
    | ok r' =>
      rw [hread] at hfirst
      obtain ⟨hended, hsettled⟩ : r'.ended = false ∧ r'.settled = r.settled.bind g.put := by
        cases hfirst with
        | waiting hended hsettled => exact ⟨hended, hsettled⟩
      rw [← hsettled]
      exact ih (fun g' hg' => hgs g' (List.mem_cons_of_mem g hg')) hended
    | error stop =>
      rw [hread] at hfirst
      cases hfirst with
      | refused he =>
        rw [he]
        exact .refused rfl

/-- **Options are read as they are spelled.** The words of some options give the flags that the
options give, one after the other, and where an option is refused the words are. -/
theorem readAll_spelled {gs : List (Given α)} {words : List (List String)}
    (hgs : ∀ g ∈ gs, Known opts g.opt) (hwords : List.Forall₂ Given.Spelled gs words) (flags : α) :
    readAll opts flags words.flatten =
      (Given.putAll gs flags).mapError .refused := by
  have hall : ComesTo _ (words.flatten.foldlM (take opts .unknownArgument) (start flags)) :=
    comesTo_flatten hgs hwords rfl
  have hstart : (start flags).settled = .ok flags := rfl
  rw [hstart] at hall
  unfold readAll
  cases hread : words.flatten.foldlM (take opts .unknownArgument) (start flags) with
  | ok r =>
    rw [hread] at hall
    cases hall with
    | waiting _ hsettled =>
      exact congrArg (Except.mapError Stop.refused) hsettled
  | error stop =>
    rw [hread] at hall
    cases hall with
    | refused he =>
      exact (congrArg (Except.mapError Stop.refused) he).symm

/-- The words of one option give what the option gives. -/
theorem readAll_of_spelled {g : Given α} {words : List String} (hg : Known opts g.opt)
    (hwords : g.Spelled words) (flags : α) :
    readAll opts flags words = (g.put flags).mapError .refused := by
  have hgs : ∀ g' ∈ [g], Known opts g'.opt := by
    intro g' hg'
    rw [List.mem_singleton.mp hg']
    exact hg
  have hone : Given.putAll [g] flags = g.put flags := bind_pure (g.put flags)
  have hread := readAll_spelled hgs (.cons hwords .nil) flags
  rwa [List.flatten_singleton, hone] at hread

end Reading

end FrontDoor.CommandLine
