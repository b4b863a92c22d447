import FrontDoor.CommandLine.Serve
import FrontDoor.Proofs.Text.Utf8
import FrontDoor.Proofs.Toml.Entries

/-!
# Flags before the file, the file before the defaults

Each of the four settings has an entry of its own in a file (`Field`). A file is accepted when what
it says of each setting fits, and then sets these and nothing else (`ofEntries_eq_ok_iff`). What the
flags say comes before the file, and what the file says before the defaults, but a file that cannot
be used is refused whatever the flags say (`resolve_by_precedence`).
-/

namespace FrontDoor.Settings

open Toml

/-- The value of the entry of a name. -/
def value? (entries : List Entry) (name : String) : Option Value :=
  (entries.find? (·.name == name)).map Entry.value

/-- A setting: the name of its entry, how its value is read, and where it is kept. -/
structure Field (α : Type) where
  name : String
  read : Value → Except Misfit α
  get : Settings → α

namespace Field

variable {α : Type}

def httpAddr : Field SocketAddress := ⟨"http_addr", asAddress, Settings.httpAddr⟩
def metricsAddr : Field SocketAddress := ⟨"metrics_addr", asAddress, Settings.metricsAddr⟩
def nodeId : Field String := ⟨"node_id", asString, Settings.nodeId⟩
def exposeMetrics : Field Bool := ⟨"expose_metrics", asBoolean, Settings.exposeMetrics⟩

/-- What some entries say of a setting, if they say anything that fits. -/
def given? (f : Field α) (entries : List Entry) : Option α :=
  (value? entries f.name).bind fun v => (f.read v).toOption

/-- Whether what some entries say of a setting fits, if they say anything. -/
def Fits (f : Field α) (entries : List Entry) : Prop :=
  ∀ v ∈ value? entries f.name, (f.read v).isOk = true

instance (f : Field α) (entries : List Entry) : Decidable (f.Fits entries) :=
  inferInstanceAs (Decidable (∀ v ∈ value? entries f.name, (f.read v).isOk = true))

/-- An entry of the name of a setting sets it, when its value fits, and other entries leave it. -/
structure Lawful (f : Field α) : Prop where
  own : ∀ {s s' v}, Settings.apply s f.name v = .ok s' → f.read v = .ok (f.get s')
  other : ∀ {s s' name v}, name ≠ f.name → Settings.apply s name v = .ok s' → f.get s' = f.get s

end Field

/-- Whether everything fits that some entries say of the settings. -/
structure Fit (entries : List Entry) : Prop where
  httpAddr : Field.httpAddr.Fits entries
  metricsAddr : Field.metricsAddr.Fits entries
  nodeId : Field.nodeId.Fits entries
  exposeMetrics : Field.exposeMetrics.Fits entries

/-! ## One entry -/

/-- How an entry is taken: as the setting of its name, or not at all. -/
theorem apply_cases {s s' : Settings} {name : String} {v : Value} (h : s.apply name v = .ok s') :
    (name = "http_addr" ∧ ∃ a, asAddress v = .ok a ∧ s' = { s with httpAddr := a }) ∨
      (name = "metrics_addr" ∧ ∃ a, asAddress v = .ok a ∧ s' = { s with metricsAddr := a }) ∨
      (name = "node_id" ∧ ∃ t, asString v = .ok t ∧ s' = { s with nodeId := t }) ∨
      (name = "expose_metrics" ∧ ∃ b, asBoolean v = .ok b ∧ s' = { s with exposeMetrics := b }) ∨
      (name ∉ ["http_addr", "metrics_addr", "node_id", "expose_metrics"] ∧ s' = s) := by
  have hok : ∀ {α : Type} {r : Except Misfit α} {set : α → Settings},
      r.map set = .ok s' → ∃ a, r = .ok a ∧ s' = set a := by
    intro α r set h
    cases r with
    | error e => cases h
    | ok a => exact ⟨a, rfl, (Except.ok.inj h).symm⟩
  unfold Settings.apply at h
  split at h
  · next hname => exact .inl ⟨hname, hok h⟩
  split at h
  · next hname => exact .inr (.inl ⟨hname, hok h⟩)
  split at h
  · next hname => exact .inr (.inr (.inl ⟨hname, hok h⟩))
  split at h
  · next hname => exact .inr (.inr (.inr (.inl ⟨hname, hok h⟩)))
  · refine .inr (.inr (.inr (.inr ⟨?_, (Except.ok.inj h).symm⟩)))
    simp [*]

namespace Field

theorem lawful_httpAddr : httpAddr.Lawful where
  own h := by
    rcases apply_cases h with ⟨-, a, ha, rfl⟩ | ⟨h, -⟩ | ⟨h, -⟩ | ⟨h, -⟩ | ⟨h, -⟩
    · exact ha
    all_goals exact absurd h (by decide)
  other hne h := by
    rcases apply_cases h with ⟨h, -⟩ | ⟨-, _, -, rfl⟩ | ⟨-, _, -, rfl⟩ | ⟨-, _, -, rfl⟩ | ⟨-, rfl⟩
    · exact absurd h hne
    all_goals rfl

theorem lawful_metricsAddr : metricsAddr.Lawful where
  own h := by
    rcases apply_cases h with ⟨h, -⟩ | ⟨-, a, ha, rfl⟩ | ⟨h, -⟩ | ⟨h, -⟩ | ⟨h, -⟩
    case inr.inl => exact ha
    all_goals exact absurd h (by decide)
  other hne h := by
    rcases apply_cases h with ⟨-, _, -, rfl⟩ | ⟨h, -⟩ | ⟨-, _, -, rfl⟩ | ⟨-, _, -, rfl⟩ | ⟨-, rfl⟩
    case inr.inl => exact absurd h hne
    all_goals rfl

theorem lawful_nodeId : nodeId.Lawful where
  own h := by
    rcases apply_cases h with ⟨h, -⟩ | ⟨h, -⟩ | ⟨-, t, ht, rfl⟩ | ⟨h, -⟩ | ⟨h, -⟩
    case inr.inr.inl => exact ht
    all_goals exact absurd h (by decide)
  other hne h := by
    rcases apply_cases h with ⟨-, _, -, rfl⟩ | ⟨-, _, -, rfl⟩ | ⟨h, -⟩ | ⟨-, _, -, rfl⟩ | ⟨-, rfl⟩
    case inr.inr.inl => exact absurd h hne
    all_goals rfl

theorem lawful_exposeMetrics : exposeMetrics.Lawful where
  own h := by
    rcases apply_cases h with ⟨h, -⟩ | ⟨h, -⟩ | ⟨h, -⟩ | ⟨-, b, hb, rfl⟩ | ⟨h, -⟩
    case inr.inr.inr.inl => exact hb
    all_goals exact absurd h (by decide)
  other hne h := by
    rcases apply_cases h with ⟨-, _, -, rfl⟩ | ⟨-, _, -, rfl⟩ | ⟨-, _, -, rfl⟩ | ⟨h, -⟩ | ⟨-, rfl⟩
    case inr.inr.inr.inl => exact absurd h hne
    all_goals rfl

end Field

/-- An entry is taken when it fits the setting of its name. -/
theorem exists_apply (s : Settings) {name : String} {v : Value}
    (haddr : name = "http_addr" ∨ name = "metrics_addr" → (asAddress v).isOk = true)
    (hid : name = "node_id" → (asString v).isOk = true)
    (hexpose : name = "expose_metrics" → (asBoolean v).isOk = true) :
    ∃ s', s.apply name v = .ok s' := by
  have hmap : ∀ {α : Type} {r : Except Misfit α} {set : α → Settings},
      r.isOk = true → ∃ s', r.map set = .ok s' := by
    intro α r set hr
    cases r with
    | error e => cases hr
    | ok a => exact ⟨set a, rfl⟩
  unfold Settings.apply
  split
  · next hname => exact hmap (haddr (.inl hname))
  split
  · next hname => exact hmap (haddr (.inr hname))
  split
  · next hname => exact hmap (hid hname)
  split
  · next hname => exact hmap (hexpose hname)
  · exact ⟨s, rfl⟩

/-! ## All entries -/

variable {α : Type} {e : Entry} {entries : List Entry} {name : String}

theorem value?_cons_self (h : e.name = name) : value? (e :: entries) name = some e.value := by
  simp [value?, h]

theorem value?_cons_of_ne (h : e.name ≠ name) :
    value? (e :: entries) name = value? entries name := by
  simp [value?, h]

theorem value?_eq_none (h : name ∉ entries.map Entry.name) : value? entries name = none := by
  unfold value?
  rw [Option.map_eq_none_iff, List.find?_eq_none]
  intro e he hname
  exact h (List.mem_map.mpr ⟨e, he, beq_iff_eq.mp hname⟩)

/-- Nothing more is said under the name of an entry. -/
theorem value?_of_nodup (h : ((e :: entries).map Entry.name).Nodup) (hname : e.name = name) :
    value? entries name = none :=
  value?_eq_none (hname ▸ (List.nodup_cons.mp h).1)

theorem Field.Fits.tail {f : Field α} (hf : f.Fits (e :: entries))
    (h : ((e :: entries).map Entry.name).Nodup) : f.Fits entries := by
  intro v hv
  by_cases hname : e.name = f.name
  · rw [value?_of_nodup h hname] at hv
    cases hv
  · exact hf v ((value?_cons_of_ne hname).trans hv)

theorem Fit.tail (hfit : Fit (e :: entries)) (h : ((e :: entries).map Entry.name).Nodup) :
    Fit entries :=
  ⟨hfit.httpAddr.tail h, hfit.metricsAddr.tail h, hfit.nodeId.tail h, hfit.exposeMetrics.tail h⟩

theorem mapError_eq_ok_iff {ε ε' : Type} {r : Except ε α} {f : ε → ε'} {a : α} :
    r.mapError f = .ok a ↔ r = .ok a := by
  constructor
  · intro h
    cases r with
    | error e => cases h
    | ok b =>
      cases h
      rfl
  · rintro rfl
    rfl

/-- The settings after some entries. -/
def applyAll (s : Settings) (entries : List Entry) : Except SettingsError Settings :=
  entries.foldlM (fun s e => (s.apply e.name e.value).mapError (.misfit e.place)) s

theorem applyAll_cons_eq_ok_iff {s s' : Settings} :
    s.applyAll (e :: entries) = .ok s' ↔
      ∃ s₁, s.apply e.name e.value = .ok s₁ ∧ s₁.applyAll entries = .ok s' := by
  unfold applyAll
  rw [List.foldlM_cons]
  simp only [← mapError_eq_ok_iff (f := SettingsError.misfit e.place)]
  cases (s.apply e.name e.value).mapError (SettingsError.misfit e.place) with
  | error m => simp [bind, Except.bind]
  | ok s₁ => simp [bind, Except.bind]

/-- Each setting is what is said of it, which fits, or stays what it was. -/
theorem Field.Lawful.of_applyAll {f : Field α} (hf : f.Lawful) {s s' : Settings}
    (hnodup : (entries.map Entry.name).Nodup) (h : s.applyAll entries = .ok s') :
    f.Fits entries ∧ f.get s' = (f.given? entries).getD (f.get s) := by
  induction entries generalizing s with
  | nil =>
    cases h
    exact ⟨fun _ hv => (nomatch hv), rfl⟩
  | cons e entries ih =>
    obtain ⟨s₁, hs₁, hrest⟩ := applyAll_cons_eq_ok_iff.mp h
    obtain ⟨hfits, hget⟩ := ih (List.nodup_cons.mp hnodup).2 hrest
    unfold Field.Fits Field.given? at *
    by_cases hname : e.name = f.name
    · have hread := hf.own (hname ▸ hs₁)
      rw [value?_of_nodup hnodup hname] at hget
      rw [value?_cons_self hname]
      refine ⟨?_, ?_⟩
      · rintro v ⟨⟩
        rw [hread]
        rfl
      · rw [Option.bind_some, hread]
        exact hget
    · rw [value?_cons_of_ne hname]
      exact ⟨hfits, hget.trans (congrArg _ (hf.other hname hs₁))⟩

theorem exists_applyAll (hfit : Fit entries) (hnodup : (entries.map Entry.name).Nodup)
    (s : Settings) : ∃ s', s.applyAll entries = .ok s' := by
  induction entries generalizing s with
  | nil => exact ⟨s, rfl⟩
  | cons e entries ih =>
    have hfirst : ∃ s₁, s.apply e.name e.value = .ok s₁ := by
      apply exists_apply
      · rintro (h | h)
        · exact hfit.httpAddr _ (value?_cons_self h)
        · exact hfit.metricsAddr _ (value?_cons_self h)
      · exact fun h => hfit.nodeId _ (value?_cons_self h)
      · exact fun h => hfit.exposeMetrics _ (value?_cons_self h)
    obtain ⟨s₁, hs₁⟩ := hfirst
    obtain ⟨s', hs'⟩ := ih (hfit.tail hnodup) (List.nodup_cons.mp hnodup).2 s₁
    exact ⟨s', applyAll_cons_eq_ok_iff.mpr ⟨s₁, hs₁, hs'⟩⟩

/-- The settings that some entries give, where the others are the defaults. -/
def filled (entries : List Entry) : Settings where
  httpAddr := (Field.httpAddr.given? entries).getD default.httpAddr
  metricsAddr := (Field.metricsAddr.given? entries).getD default.metricsAddr
  nodeId := (Field.nodeId.given? entries).getD default.nodeId
  exposeMetrics := (Field.exposeMetrics.given? entries).getD default.exposeMetrics

theorem ofEntries_eq_ok_iff (hnodup : (entries.map Entry.name).Nodup) {s : Settings} :
    ofEntries entries = .ok s ↔ Fit entries ∧ s = filled entries := by
  have hok : ∀ {s'}, ofEntries entries = .ok s' → Fit entries ∧ s' = filled entries := by
    intro s' h
    obtain ⟨hhttp, hhttp'⟩ := Field.lawful_httpAddr.of_applyAll hnodup h
    obtain ⟨hmetrics, hmetrics'⟩ := Field.lawful_metricsAddr.of_applyAll hnodup h
    obtain ⟨hid, hid'⟩ := Field.lawful_nodeId.of_applyAll hnodup h
    obtain ⟨hexpose, hexpose'⟩ := Field.lawful_exposeMetrics.of_applyAll hnodup h
    refine ⟨⟨hhttp, hmetrics, hid, hexpose⟩, ?_⟩
    obtain ⟨_, _, _, _⟩ := s'
    rw [filled, Settings.mk.injEq]
    exact ⟨hhttp', hmetrics', hid', hexpose'⟩
  refine ⟨hok, ?_⟩
  rintro ⟨hfit, rfl⟩
  obtain ⟨s', hs'⟩ := exists_applyAll hfit hnodup default
  rw [← (hok hs').2]
  exact hs'

/-! ## Texts and files -/

theorem ofText_eq_ok_iff {text : String} {s : Settings} :
    ofText text = .ok s ↔
      ∃ entries, readEntries? text.toList = some entries ∧ Fit entries ∧ s = filled entries := by
  unfold ofText
  cases hread : readEntries? text.toList with
  | none => simp
  | some entries => simp [ofEntries_eq_ok_iff (nodup_of_readEntries? hread)]

theorem load_encode (path text : String) :
    load path (.ok (Utf8.encode text.toList)) =
      (ofText text).mapError (.settings (some path) text) := by
  have hdecode := Utf8.decode?_eq_some_iff.mpr (rfl : Utf8.encode text.toList = _)
  unfold load
  dsimp only
  rw [hdecode]
  dsimp only
  rw [String.ofList_toList]

theorem load_eq_ok_iff {path : String} {file : Except SystemError Bytes} {s : Settings} :
    load path file = .ok s ↔
      ∃ text : String, file = .ok (Utf8.encode text.toList) ∧ ofText text = .ok s := by
  constructor
  · intro h
    cases file with
    | error e => cases h
    | ok bytes =>
      cases hdecode : Utf8.decode? bytes with
      | none => simp [load, hdecode] at h
      | some cs =>
        have hbytes : bytes = Utf8.encode (String.ofList cs).toList := by
          rw [String.toList_ofList]
          exact Utf8.decode?_eq_some_iff.mp hdecode
        refine ⟨String.ofList cs, congrArg _ hbytes, ?_⟩
        rw [hbytes, load_encode] at h
        exact mapError_eq_ok_iff.mp h
  · rintro ⟨text, rfl, h⟩
    rw [load_encode]
    exact mapError_eq_ok_iff.mpr h

/-- A file with the settings of a text gives what the text gives, or is complained about as the text
is, behind its path. -/
theorem load_agrees_with_parse (path text : String) :
    (∀ s, load path (.ok (Utf8.encode text.toList)) = .ok s ↔ parse text = .ok s) ∧
      ∀ e, parse text = .error e → ∃ e' detail,
        load path (.ok (Utf8.encode text.toList)) = .error e' ∧
          e.message = "configuration error: " ++ detail ∧
          e'.message = "configuration error: " ++ path ++ ": " ++ detail := by
  rw [load_encode, parse]
  refine ⟨fun s => mapError_eq_ok_iff.trans mapError_eq_ok_iff.symm, fun e he => ?_⟩
  cases hof : ofText text with
  | ok s =>
    rw [hof] at he
    cases he
  | error reason =>
    rw [hof] at he
    cases he
    exact ⟨_, reason.detail text, rfl, rfl, rfl⟩

end FrontDoor.Settings

namespace FrontDoor.CommandLine.ServeFlags

open Settings Toml

/-- The top-level entries of the file that the flags name, or none when they name no file. The file
is UTF-8 and TOML. -/
def Entries (flags : ServeFlags) (files : String → Except SystemError Bytes)
    (entries : List Entry) : Prop :=
  match flags.config with
  | none => entries = []
  | some path => ∃ text : String,
      files path = .ok (Utf8.encode text.toList) ∧ readEntries? text.toList = some entries

/-- Each setting as the flags say, or else as some entries say, or else as it is by default. -/
def merged (flags : ServeFlags) (entries : List Entry) : Settings where
  httpAddr := (flags.httpAddr.or (Field.httpAddr.given? entries)).getD (.v4 ⟨127, 0, 0, 1⟩ 11000)
  metricsAddr := (flags.metricsAddr.or (Field.metricsAddr.given? entries)).getD
    (.v4 ⟨0, 0, 0, 0⟩ 9100)
  nodeId := (flags.nodeId.or (Field.nodeId.given? entries)).getD "node0"
  exposeMetrics := !flags.noMetrics && (Field.exposeMetrics.given? entries).getD true

variable {flags : ServeFlags} {files : String → Except SystemError Bytes} {entries : List Entry}

theorem override_filled (flags : ServeFlags) (entries : List Entry) :
    flags.override (filled entries) = flags.merged entries := by
  unfold override merged filled
  rw [Option.getD_or, Option.getD_or, Option.getD_or]
  rfl

theorem fit_nil : Fit [] where
  httpAddr _ hv := nomatch hv
  metricsAddr _ hv := nomatch hv
  nodeId _ hv := nomatch hv
  exposeMetrics _ hv := nomatch hv

theorem nodup_of_entries (h : flags.Entries files entries) :
    (entries.map Entry.name).Nodup := by
  unfold Entries at h
  split at h
  · exact h ▸ List.nodup_nil
  · obtain ⟨text, -, hread⟩ := h
    exact nodup_of_readEntries? hread

theorem resolve_eq_ok_iff {s : Settings} :
    flags.resolve files = .ok s ↔
      ∃ entries, flags.Entries files entries ∧ Fit entries ∧ s = flags.merged entries := by
  unfold resolve Entries
  cases flags.config with
  | none =>
    have hdefault : flags.override .default = flags.merged [] := override_filled flags []
    simp only [hdefault, exists_eq_left, fit_nil, true_and, Except.ok.injEq]
    exact eq_comm
  | some path =>
    dsimp only
    constructor
    · intro h
      cases hload : Settings.load path (files path) with
      | error e => simp [hload, Except.map] at h
      | ok s₀ =>
        obtain ⟨text, hfile, htext⟩ := load_eq_ok_iff.mp hload
        obtain ⟨entries, hread, hfit, rfl⟩ := ofText_eq_ok_iff.mp htext
        rw [hload, Except.map, override_filled] at h
        exact ⟨entries, ⟨text, hfile, hread⟩, hfit, (Except.ok.inj h).symm⟩
    · rintro ⟨entries, ⟨text, hfile, hread⟩, hfit, rfl⟩
      have hload : Settings.load path (files path) = .ok (filled entries) :=
        load_eq_ok_iff.mpr ⟨text, hfile, ofText_eq_ok_iff.mpr ⟨entries, hread, hfit, rfl⟩⟩
      rw [hload, Except.map, override_filled]

/-- **Flags come before the file, and the file before the defaults.** When the flags name no file,
or one that is UTF-8 and TOML and fits wherever it says something of a setting, each setting is that
of its flag, or else that of its only entry in the file, or else the default; when they name any
other file, or one that cannot be read, there are no settings, whatever the flags override. A file
gives the settings that its text gives, or the complaint about the text with its path in front. -/
theorem resolve_by_precedence (flags : ServeFlags)
    (files : String → Except SystemError Bytes) :
    (∀ entries, flags.Entries files entries → Fit entries →
        flags.resolve files = .ok (flags.merged entries)) ∧
      (∀ entries, flags.Entries files entries → (entries.map Entry.name).Nodup) ∧
      ((¬∃ entries, flags.Entries files entries ∧ Fit entries) →
        ∃ e, flags.resolve files = .error e) ∧
      ∀ path text : String,
        let loaded := Settings.load path (.ok (Utf8.encode text.toList))
        (∀ s, loaded = .ok s ↔ Settings.parse text = .ok s) ∧
          ∀ e, Settings.parse text = .error e → ∃ e' detail, loaded = .error e' ∧
            e.message = "configuration error: " ++ detail ∧
            e'.message = "configuration error: " ++ path ++ ": " ++ detail := by
  refine ⟨fun entries hentries hfit => ?_, fun entries => nodup_of_entries, fun hnone => ?_,
    load_agrees_with_parse⟩
  · exact resolve_eq_ok_iff.mpr ⟨entries, hentries, hfit, rfl⟩
  · cases hresolve : flags.resolve files with
    | error e => exact ⟨e, rfl⟩
    | ok s =>
      obtain ⟨entries, hentries, hfit, -⟩ := resolve_eq_ok_iff.mp hresolve
      exact absurd ⟨entries, hentries, hfit⟩ hnone

/-- Two settings of a file are overridden and one is not; a file with a number for an address is
refused although a flag overrides it. -/
theorem flags_before_a_file :
    let text := "node_id = \"n7\"\nexpose_metrics = false\nhttp_addr = \"0.0.0.0:12000\"\n"
    let files (path : String) : Except SystemError Bytes :=
      if path = "good" then .ok (Utf8.encode text.toList)
      else .ok (Utf8.encode "http_addr = 5".toList)
    let good : ServeFlags :=
      ⟨some "good", some (.v4 ⟨1, 2, 3, 4⟩ 80), none, none, false, false⟩
    let bad : ServeFlags := { good with config := some "bad" }
    let entries := (readEntries? text.toList).getD []
    good.Entries files entries ∧ Fit entries ∧
      good.resolve files =
        .ok ⟨.v4 ⟨1, 2, 3, 4⟩ 80, .v4 ⟨0, 0, 0, 0⟩ 9100, "n7", false⟩ ∧
      (¬∃ entries, bad.Entries files entries ∧ Fit entries) ∧
      ∃ e, bad.resolve files = .error e := by
  intro text files good bad entries
  have hentries : good.Entries files entries := ⟨text, rfl, by decide +kernel⟩
  have hfit : Fit entries :=
    ⟨by decide +kernel, by decide +kernel, by decide +kernel, by decide +kernel⟩
  have hbad : ¬∃ entries, bad.Entries files entries ∧ Fit entries := by
    rintro ⟨entries, ⟨text', hfile, hread⟩, hfit⟩
    have htext : "http_addr = 5".toList = text'.toList :=
      Utf8.encode_injective (Except.ok.inj hfile)
    have hmisfit : ¬Field.httpAddr.Fits ((readEntries? "http_addr = 5".toList).getD []) := by
      decide +kernel
    rw [htext, hread] at hmisfit
    exact hmisfit hfit.httpAddr
  obtain ⟨hgood, -⟩ := resolve_by_precedence good files
  obtain ⟨-, -, hrefused, -⟩ := resolve_by_precedence bad files
  refine ⟨hentries, hfit, (hgood entries hentries hfit).trans ?_, hbad, hrefused hbad⟩
  exact congrArg Except.ok (by decide +kernel)

end FrontDoor.CommandLine.ServeFlags
