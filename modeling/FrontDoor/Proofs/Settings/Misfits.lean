import FrontDoor.Proofs.Settings.Precedence
import FrontDoor.Proofs.Toml.Origins

/-!
# Settings of a text, and the first misfit

A text that is TOML gives settings exactly when everything fits that it says of them (`Settled`),
and nothing else in it matters. Otherwise the entry that is complained about is the first in the
text that does not fit, and the complaint points at where it stands (`parse_reports_first_misfit`).
-/

namespace FrontDoor.Settings

open Toml

/-! ## Values that fit -/

/-- The address that a value spells. -/
def IsAddress (v : Value) (a : SocketAddress) : Prop :=
  ∃ t, v = .string t ∧ SocketAddress.read? t = some a

theorem asAddress_eq_ok_iff {v : Value} {a : SocketAddress} :
    asAddress v = .ok a ↔ IsAddress v a := by
  unfold asAddress IsAddress
  cases v with
  | string t => cases h : SocketAddress.read? t <;> simp [h]
  | integer | float | boolean | dateTime | array | table => simp

theorem asString_eq_ok_iff {v : Value} {t : String} : asString v = .ok t ↔ v = .string t := by
  cases v <;> simp [asString]

theorem asBoolean_eq_ok_iff {v : Value} {b : Bool} : asBoolean v = .ok b ↔ v = .boolean b := by
  cases v <;> simp [asBoolean]

/-- What some entries say of a setting, which otherwise is what it is by default. -/
def Told {α : Type} (entries : List Entry) (name : String) (Says : Value → α → Prop)
    (fallback a : α) : Prop :=
  match value? entries name with
  | none => a = fallback
  | some v => Says v a

/-- Every setting is as its entry says, or as it is by default. -/
structure Settled (entries : List Entry) (s : Settings) : Prop where
  httpAddr : Told entries "http_addr" IsAddress (.v4 ⟨127, 0, 0, 1⟩ 11000) s.httpAddr
  metricsAddr : Told entries "metrics_addr" IsAddress (.v4 ⟨0, 0, 0, 0⟩ 9100) s.metricsAddr
  nodeId : Told entries "node_id" (fun v t => v = .string t) "node0" s.nodeId
  exposeMetrics : Told entries "expose_metrics" (fun v b => v = .boolean b) true s.exposeMetrics

variable {entries : List Entry}

theorem told_iff {α : Type} {f : Field α} {Says : Value → α → Prop}
    (hread : ∀ {v a}, f.read v = .ok a ↔ Says v a) {fallback a : α} :
    Told entries f.name Says fallback a ↔
      f.Fits entries ∧ a = (f.given? entries).getD fallback := by
  unfold Told Field.Fits Field.given?
  cases value? entries f.name with
  | none => simp
  | some v =>
    dsimp only
    rw [← hread]
    constructor
    · intro hv
      refine ⟨?_, ?_⟩
      · rintro _ ⟨⟩
        rw [hv]
        rfl
      · rw [Option.bind_some, hv]
        rfl
    · rintro ⟨hfits, rfl⟩
      have hok := hfits v rfl
      cases hv : f.read v with
      | error e =>
        rw [hv] at hok
        cases hok
      | ok b =>
        rw [Option.bind_some, hv]
        rfl

theorem settled_iff {s : Settings} : Settled entries s ↔ Fit entries ∧ s = filled entries := by
  constructor
  · intro h
    obtain ⟨hhttp, hhttp'⟩ := (told_iff (f := .httpAddr) asAddress_eq_ok_iff).mp h.httpAddr
    obtain ⟨hmetrics, hmetrics'⟩ :=
      (told_iff (f := .metricsAddr) asAddress_eq_ok_iff).mp h.metricsAddr
    obtain ⟨hid, hid'⟩ := (told_iff (f := .nodeId) asString_eq_ok_iff).mp h.nodeId
    obtain ⟨hexpose, hexpose'⟩ :=
      (told_iff (f := .exposeMetrics) asBoolean_eq_ok_iff).mp h.exposeMetrics
    refine ⟨⟨hhttp, hmetrics, hid, hexpose⟩, ?_⟩
    obtain ⟨_, _, _, _⟩ := s
    rw [filled, Settings.mk.injEq]
    exact ⟨hhttp', hmetrics', hid', hexpose'⟩
  · rintro ⟨hfit, rfl⟩
    exact ⟨(told_iff (f := .httpAddr) asAddress_eq_ok_iff).mpr ⟨hfit.httpAddr, rfl⟩,
      (told_iff (f := .metricsAddr) asAddress_eq_ok_iff).mpr ⟨hfit.metricsAddr, rfl⟩,
      (told_iff (f := .nodeId) asString_eq_ok_iff).mpr ⟨hfit.nodeId, rfl⟩,
      (told_iff (f := .exposeMetrics) asBoolean_eq_ok_iff).mpr ⟨hfit.exposeMetrics, rfl⟩⟩

theorem told_congr {α : Type} {entries' : List Entry} {name : String} {Says : Value → α → Prop}
    {fallback a : α} (h : value? entries' name = value? entries name) :
    Told entries' name Says fallback a ↔ Told entries name Says fallback a := by
  rw [Told, Told, h]

/-- Nothing matters but the values under the names of the settings. -/
theorem settled_congr {entries' : List Entry} {s : Settings}
    (h : ∀ name ∈ ["http_addr", "metrics_addr", "node_id", "expose_metrics"],
      value? entries' name = value? entries name) :
    Settled entries' s ↔ Settled entries s := by
  have hhttp := h "http_addr" (by simp)
  have hmetrics := h "metrics_addr" (by simp)
  have hid := h "node_id" (by simp)
  have hexpose := h "expose_metrics" (by simp)
  constructor
  · rintro ⟨h₁, h₂, h₃, h₄⟩
    exact ⟨(told_congr hhttp).mp h₁, (told_congr hmetrics).mp h₂, (told_congr hid).mp h₃,
      (told_congr hexpose).mp h₄⟩
  · rintro ⟨h₁, h₂, h₃, h₄⟩
    exact ⟨(told_congr hhttp).mpr h₁, (told_congr hmetrics).mpr h₂, (told_congr hid).mpr h₃,
      (told_congr hexpose).mpr h₄⟩

theorem parse_eq_ok_iff {text : String} (hread : readEntries? text.toList = some entries)
    {s : Settings} : parse text = .ok s ↔ Settled entries s := by
  rw [settled_iff, parse, mapError_eq_ok_iff, ofText_eq_ok_iff]
  constructor
  · rintro ⟨entries', hread', h⟩
    obtain rfl := Option.some.inj (hread.symm.trans hread')
    exact h
  · exact fun h => ⟨entries, hread, h⟩

/-! ## Misfits -/

/-- An entry of the name of a setting whose value does not fit, and why. -/
inductive Misfits (e : Entry) : Misfit → Prop where
  | badAddress {t : String} : e.name = "http_addr" ∨ e.name = "metrics_addr" →
      e.value = .string t → SocketAddress.read? t = none → Misfits e .badAddress
  | notAddress : e.name = "http_addr" ∨ e.name = "metrics_addr" →
      (∀ t, e.value ≠ .string t) → Misfits e (.wrongType e.value .address)
  | notString : e.name = "node_id" →
      (∀ t, e.value ≠ .string t) → Misfits e (.wrongType e.value .string)
  | notBoolean : e.name = "expose_metrics" →
      (∀ b, e.value ≠ .boolean b) → Misfits e (.wrongType e.value .boolean)

theorem asAddress_eq_error_iff {v : Value} {reason : Misfit} :
    asAddress v = .error reason ↔
      (∃ t, v = .string t ∧ SocketAddress.read? t = none ∧ reason = .badAddress) ∨
        (∀ t, v ≠ .string t) ∧ reason = .wrongType v .address := by
  unfold asAddress
  cases v with
  | string t => cases h : SocketAddress.read? t <;> simp [h, eq_comm]
  | integer | float | boolean | dateTime | array | table => simp [eq_comm]

theorem asString_eq_error_iff {v : Value} {reason : Misfit} :
    asString v = .error reason ↔ (∀ t, v ≠ .string t) ∧ reason = .wrongType v .string := by
  cases v <;> simp [asString, eq_comm]

theorem asBoolean_eq_error_iff {v : Value} {reason : Misfit} :
    asBoolean v = .error reason ↔ (∀ b, v ≠ .boolean b) ∧ reason = .wrongType v .boolean := by
  cases v <;> simp [asBoolean, eq_comm]

theorem map_eq_error_iff {ε α β : Type} {r : Except ε α} {f : α → β} {e : ε} :
    r.map f = .error e ↔ r = .error e := by
  cases r <;> simp [Except.map]

/-- An entry is refused exactly when it does not fit. -/
theorem apply_eq_error_iff {s : Settings} {e : Entry} {reason : Misfit} :
    s.apply e.name e.value = .error reason ↔ Misfits e reason := by
  obtain ⟨name, v, place⟩ := e
  constructor
  · intro h
    dsimp only at h
    have haddress : name = "http_addr" ∨ name = "metrics_addr" → asAddress v = .error reason →
        Misfits ⟨name, v, place⟩ reason := by
      intro hname herror
      rcases asAddress_eq_error_iff.mp herror with ⟨t, hv, hread, rfl⟩ | ⟨hv, rfl⟩
      · exact .badAddress hname hv hread
      · exact .notAddress hname hv
    unfold Settings.apply at h
    split at h
    · next hname => exact haddress (.inl hname) (map_eq_error_iff.mp h)
    split at h
    · next hname => exact haddress (.inr hname) (map_eq_error_iff.mp h)
    split at h
    · next hname =>
      obtain ⟨hv, rfl⟩ := asString_eq_error_iff.mp (map_eq_error_iff.mp h)
      exact .notString hname hv
    split at h
    · next hname =>
      obtain ⟨hv, rfl⟩ := asBoolean_eq_error_iff.mp (map_eq_error_iff.mp h)
      exact .notBoolean hname hv
    · cases h
  · intro h
    have haddress : name = "http_addr" ∨ name = "metrics_addr" → asAddress v = .error reason →
        s.apply name v = .error reason := by
      rintro (rfl | rfl) herror
      · exact map_eq_error_iff.mpr herror
      · exact map_eq_error_iff.mpr herror
    cases h with
    | badAddress hname hv hread =>
      exact haddress hname (asAddress_eq_error_iff.mpr (.inl ⟨_, hv, hread, rfl⟩))
    | notAddress hname hv =>
      exact haddress hname (asAddress_eq_error_iff.mpr (.inr ⟨hv, rfl⟩))
    | notString hname hv =>
      obtain rfl : name = "node_id" := hname
      exact map_eq_error_iff.mpr (asString_eq_error_iff.mpr ⟨hv, rfl⟩)
    | notBoolean hname hv =>
      obtain rfl : name = "expose_metrics" := hname
      exact map_eq_error_iff.mpr (asBoolean_eq_error_iff.mpr ⟨hv, rfl⟩)

/-- The complaint is about the first misfit of a list. -/
theorem applyAll_error {s : Settings} {err : SettingsError} (h : s.applyAll entries = .error err) :
    ∃ front e back reason, entries = front ++ e :: back ∧ Misfits e reason ∧
      (∀ e' ∈ front, ∀ reason', ¬Misfits e' reason') ∧ err = .misfit e.place reason := by
  induction entries generalizing s with
  | nil => cases h
  | cons e entries ih =>
    unfold applyAll at h
    rw [List.foldlM_cons] at h
    cases happly : s.apply e.name e.value with
    | error reason =>
      rw [happly] at h
      cases h
      exact ⟨[], e, entries, reason, rfl, apply_eq_error_iff.mp happly, fun e' he' =>
        absurd he' List.not_mem_nil, rfl⟩
    | ok s₁ =>
      rw [happly] at h
      obtain ⟨front, e', back, reason, rfl, hmisfits, hfront, herr⟩ := ih h
      refine ⟨e :: front, e', back, reason, rfl, hmisfits, fun e'' he'' reason' hfirst => ?_, herr⟩
      rcases List.mem_cons.mp he'' with rfl | he''
      · rw [apply_eq_error_iff.mpr hfirst] at happly
        cases happly
      · exact hfront e'' he'' reason' hfirst

theorem not_misfits_of_applyAll {s s' : Settings} (h : s.applyAll entries = .ok s') {e : Entry}
    (he : e ∈ entries) {reason : Misfit} : ¬Misfits e reason := by
  induction entries generalizing s with
  | nil => exact absurd he List.not_mem_nil
  | cons e' entries ih =>
    obtain ⟨s₁, happly, hrest⟩ := applyAll_cons_eq_ok_iff.mp h
    rcases List.mem_cons.mp he with rfl | he
    · intro hmisfits
      rw [apply_eq_error_iff.mpr hmisfits] at happly
      cases happly
    · exact ih hrest he

/-! ## Texts -/

/-- The first line of a complaint says where it is about, and the last what is wrong. -/
theorem complaint_eq (text : List Char) (p : Place) (message : String) :
    ∃ shown, p.complaint text message =
      "TOML parse error at line " ++ Digits.decimal (p.position text).line ++ ", column " ++
        Digits.decimal ((p.position text).column + 1) ++ "\n" ++ shown ++ message ++ "\n" := by
  unfold Place.complaint
  dsimp only
  -- How the line is shown does not matter here, so its parts are only named.
  generalize Digits.decimal (p.position text).line = number
  generalize String.ofList (List.replicate (number.length + 1) ' ') ++ "|" = gutter
  generalize String.ofList (p.position text).content = content
  generalize String.ofList (List.replicate ((p.position text).column + 1) ' ') = blanks
  generalize String.ofList (List.replicate (p.marks (p.position text)) '^') = marks
  refine ⟨gutter ++ "\n" ++ number ++ " | " ++ content ++ "\n" ++ gutter ++ blanks ++ marks ++
    "\n", ?_⟩
  simp only [String.append_assoc]

/-- A text gives the settings that its entries give. -/
theorem parse_eq_ok_iff_applyAll {text : String} (hread : readEntries? text.toList = some entries)
    {s : Settings} : parse text = .ok s ↔ default.applyAll entries = .ok s := by
  rw [parse, mapError_eq_ok_iff, ofText, hread]
  rfl

theorem exists_parse_eq_ok_iff {text : String} (hread : readEntries? text.toList = some entries) :
    (∃ s, parse text = .ok s) ↔ ∀ e ∈ entries, ∀ reason, ¬Misfits e reason := by
  constructor
  · rintro ⟨s, hs⟩ e he reason
    exact not_misfits_of_applyAll ((parse_eq_ok_iff_applyAll hread).mp hs) he
  · intro hnone
    cases hall : default.applyAll entries with
    | ok s => exact ⟨s, (parse_eq_ok_iff_applyAll hread).mpr hall⟩
    | error err =>
      obtain ⟨front, e, back, reason, rfl, hmisfits, -⟩ := applyAll_error hall
      exact absurd hmisfits (hnone e (by simp) reason)

/-- The error of a text is the complaint about its first misfit. -/
theorem parse_error {text : String} (hread : readEntries? text.toList = some entries)
    {err : ServiceError} (herr : parse text = .error err) :
    ∃ front e back reason, entries = front ++ e :: back ∧ Misfits e reason ∧
      (∀ e' ∈ front, ∀ reason', ¬Misfits e' reason') ∧
      err.message = "configuration error: " ++ e.place.complaint text.toList reason.message := by
  cases hall : default.applyAll entries with
  | ok s =>
    rw [(parse_eq_ok_iff_applyAll hread).mpr hall] at herr
    cases herr
  | error err' =>
    obtain ⟨front, e, back, reason, hsplit, hmisfits, hfront, rfl⟩ := applyAll_error hall
    have hof : ofText text = .error (.misfit e.place reason) := by
      rw [ofText, hread]
      exact hall
    rw [parse, hof] at herr
    cases herr
    exact ⟨front, e, back, reason, hsplit, hmisfits, hfront, rfl⟩

/-- **The first misfit is the one that is reported.** Let a text be TOML, which means no more than
that `readEntries?` takes it, within its limits; by `readEntries?_eq_some_iff` it does so exactly
when the text says statements, by rules without fuel, and no name is given twice. The entries are
what the statements about the top level name, each name once, and the text gives settings exactly
when none of them is a misfit; then each setting is as its own entry says, or as it is by default,
so texts that agree on the four entries give the same settings, whatever else they hold and in
whatever order. Otherwise the error is about a misfit before all others in the text, and names the
line and the column at which it stands: at its value, at the brackets of its header, or at the first
part of a dotted key. -/
theorem parse_reports_first_misfit {text : String} {entries : List Entry}
    (hread : readEntries? text.toList = some entries) :
    EntriesOf text.toList entries ∧
    ((∃ s, parse text = .ok s) ↔ ∀ e ∈ entries, ∀ reason, ¬Misfits e reason) ∧
    (∀ s, parse text = .ok s ↔ Settled entries s) ∧
    (∀ (text' : String) (entries' : List Entry), readEntries? text'.toList = some entries' →
      (∀ name ∈ ["http_addr", "metrics_addr", "node_id", "expose_metrics"],
        value? entries' name = value? entries name) →
      ∀ s, parse text' = .ok s ↔ parse text = .ok s) ∧
    ∀ err, parse text = .error err → ∃ e ∈ entries, ∃ reason, Misfits e reason ∧
      (∀ e' ∈ entries, ∀ reason', Misfits e' reason' → e' = e ∨ e.place.Precedes e'.place) ∧
      ∃ line column shown, Located text.toList e.place.start line column ∧
        err.message = "configuration error: " ++ ("TOML parse error at line " ++
          Digits.decimal line ++ ", column " ++ Digits.decimal column ++ "\n" ++ shown ++
          reason.message ++ "\n") := by
  have hentries := entriesOf_of_readEntries? hread
  refine ⟨hentries, exists_parse_eq_ok_iff hread, fun s => parse_eq_ok_iff hread, ?_, ?_⟩
  · intro text' entries' hread' hsame s
    rw [parse_eq_ok_iff hread', parse_eq_ok_iff hread, settled_congr hsame]
  · intro err herr
    obtain ⟨front, e, back, reason, rfl, hmisfits, hfront, hmessage⟩ := parse_error hread herr
    have he : e ∈ front ++ e :: back := List.mem_append_right _ List.mem_cons_self
    refine ⟨e, he, reason, hmisfits, fun e' he' reason' hmisfits' => ?_, ?_⟩
    · obtain ⟨-, hback, -⟩ := List.pairwise_append.mp hentries.sorted
      rcases List.mem_append.mp he' with he' | he'
      · exact absurd hmisfits' (hfront e' he' reason')
      · exact (List.mem_cons.mp he').imp_right (List.rel_of_pairwise_cons hback)
    · obtain ⟨statement, hstatement⟩ := hentries.origin e he
      obtain ⟨shown, hshown⟩ := complaint_eq text.toList e.place reason.message
      refine ⟨_, _, shown, located_position hstatement.suffix, ?_⟩
      rw [hmessage, hshown]

/-- Two entries do not fit, behind a byte order mark, a comment and an array of two lines. -/
theorem parse_reports_a_dotted_key :
    let text := "\ufeff# ä\r\nother = [1,\n 2]\nnode_id.x = 1\n\n[metrics_addr]\n"
    let entries := (readEntries? text.toList).getD []
    readEntries? text.toList = some entries ∧
      entries.map Entry.name = ["other", "node_id", "metrics_addr"] ∧
      ∃ err, parse text = .error err ∧
        err.message = "configuration error: TOML parse error at line 4, column 1\n" ++
          "  |\n4 | node_id.x = 1\n  | ^^^^^^^\ninvalid type: map, expected a string\n" ∧
        ∃ e ∈ entries, ∃ reason, Misfits e reason ∧
          ∀ e' ∈ entries, ∀ reason', Misfits e' reason' → e' = e ∨ e.place.Precedes e'.place := by
  intro text entries
  have hread : readEntries? text.toList = some entries := by decide +kernel
  have hnames : entries.map Entry.name = ["other", "node_id", "metrics_addr"] := by decide +kernel
  have hmessage : (match parse text with
      | .ok _ => none
      | .error err => some err.message) =
        some ("configuration error: TOML parse error at line 4, column 1\n" ++
          "  |\n4 | node_id.x = 1\n  | ^^^^^^^\ninvalid type: map, expected a string\n") := by
    decide +kernel
  obtain ⟨-, -, -, -, hfirst⟩ := parse_reports_first_misfit hread
  refine ⟨hread, hnames, ?_⟩
  cases hparse : parse text with
  | ok s =>
    rw [hparse] at hmessage
    cases hmessage
  | error err =>
    rw [hparse] at hmessage
    obtain ⟨e, he, reason, hmisfits, hothers, -⟩ := hfirst err hparse
    exact ⟨err, rfl, Option.some.inj hmessage, e, he, reason, hmisfits, hothers⟩

end FrontDoor.Settings
