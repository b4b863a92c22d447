import FrontDoor.CommandLine.Invocation
import FrontDoor.Proofs.CommandLine.Slots

/-!
# Which command lines ask for what

However the options of a command are ordered and spelled, the command line asks for the command with
just these options, and tells more exactly where it says so, before the command or behind it
(`read_written`). A count is taken in any of its texts, and nothing else is.
-/

namespace FrontDoor.CommandLine

theorem exists_mapError_eq_ok_iff {ε ε' α : Type} {r : Except ε α} {f : ε → ε'} :
    (∃ a, r.mapError f = .ok a) ↔ ∃ a, r = .ok a := by
  cases r <;> simp [Except.mapError]

/-! ## Counts -/

/-- Where some options are all taken, each is. -/
theorem Given.exists_put_of_putAll {α : Type} {gs : List (Given α)} {g : Given α}
    {flags flags' : α} (h : putAll gs flags = .ok flags') (hg : g ∈ gs) :
    ∃ before after, g.put before = .ok after := by
  induction gs generalizing flags with
  | nil => cases hg
  | cons first gs ih =>
    have hall : putAll (first :: gs) flags = (first.put flags).bind (putAll gs) := rfl
    rw [hall] at h
    cases hput : first.put flags with
    | error e =>
      rw [hput] at h
      cases h
    | ok next =>
      rw [hput] at h
      rcases List.mem_cons.mp hg with rfl | hg
      · exact ⟨flags, next, hput⟩
      · exact ih h hg

namespace LoadFlags

/-- The options whose values are counts. -/
def countOptions : List (ValueOption LoadFlags) :=
  [usersOption, durationOption, keyLengthOption, maxWaitOption]

section CountOption

variable {o : ValueOption LoadFlags} (ho : o ∈ countOptions) {text : String}
include ho

theorem value_mem_options : .value o ∈ options := by
  simp only [countOptions, List.mem_cons, List.not_mem_nil, or_false] at ho
  rcases ho with rfl | rfl | rfl | rfl <;> simp [options]

theorem accept_eq_ok_iff {flags : LoadFlags} :
    (∃ flags', o.accept text flags = .ok flags') ↔ ∃ n, Count.CountText text.toList n := by
  have hcount (set : UInt64 → LoadFlags) :
      (∃ flags', (readCount text).map set = .ok flags') ↔
        ∃ n, Count.CountText text.toList n := by
    simp only [← readCount_eq_ok_iff]
    cases readCount text <;> simp [Except.map]
  simp only [countOptions, List.mem_cons, List.not_mem_nil, or_false] at ho
  rcases ho with rfl | rfl | rfl | rfl <;> exact hcount _

theorem countText_of_put {flags flags' : LoadFlags}
    (h : (Given.value o text).put flags = .ok flags') : ∃ n, Count.CountText text.toList n := by
  obtain ⟨-, -, haccept⟩ := ValueOption.give_eq_ok_iff.mp h
  exact (accept_eq_ok_iff ho).mp ⟨flags', haccept⟩

theorem exists_put_of_countText (h : ∃ n, Count.CountText text.toList n) :
    ∃ flags, (Given.value o text).put empty = .ok flags := by
  have hfirst : o.given empty = false ∧ o.mayBeEmpty = true := by
    simp only [countOptions, List.mem_cons, List.not_mem_nil, or_false] at ho
    rcases ho with rfl | rfl | rfl | rfl <;> exact ⟨rfl, rfl⟩
  obtain ⟨flags, haccept⟩ : ∃ flags, o.accept text empty = .ok flags :=
    (accept_eq_ok_iff ho).mpr h
  exact ⟨flags, ValueOption.give_eq_ok_iff.mpr ⟨hfirst.1, fun _ => hfirst.2, haccept⟩⟩

end CountOption

end LoadFlags

namespace Invocation

/-! ## In front of the command -/

/-- The words in front of a command, and whether they ask for more to be told. -/
inductive InFront : List String → Bool → Prop where
  | nothing : InFront [] false
  | long : InFront ["--verbose"] true
  | short : InFront ["-v"] true

section Read

variable {before : List String} {told : Bool} (h : InFront before told)
include h

theorem read_append {name : String} {command : CommandName}
    (hname : CommandName.ofString? name = some command) (words : List String) :
    read (before ++ name :: words) = ofCommand ⟨told⟩ words command := by
  have hcommand (r : Reading SharedFlags) (hr : r.ended = false) :
      readFrom r (name :: words) = ofCommand r.flags words command := by
    simp [readFrom, hr, hname]
  cases h with
  | nothing => exact hcommand (.start .empty) rfl
  | long => exact hcommand ⟨⟨true⟩, none, false⟩ rfl
  | short => exact hcommand ⟨⟨true⟩, none, false⟩ rfl

theorem read_serve (words : List String) :
    read (before ++ "serve" :: words) = ofCommand ⟨told⟩ words .serve :=
  read_append h (by decide) words

theorem read_load (words : List String) :
    read (before ++ "load" :: words) = ofCommand ⟨told⟩ words .load :=
  read_append h (by decide) words

theorem read_serve_of_writes {flags : ServeFlags} {words : List String}
    (hwords : ServeFlags.form.Writes flags words) :
    read (before ++ "serve" :: words) = .ok ⟨told || flags.verbose, .serve flags⟩ := by
  have hread : Reading.readAll ServeFlags.options .empty words = .ok flags :=
    ServeFlags.form.readAll_writes hwords
  rw [read_serve h, ofCommand, hread]

theorem read_load_of_writes {flags : LoadFlags} {words : List String}
    (hwords : LoadFlags.form.Writes flags words) :
    read (before ++ "load" :: words) = .ok ⟨told || flags.verbose, .load flags⟩ := by
  have hread : Reading.readAll LoadFlags.options .empty words = .ok flags :=
    LoadFlags.form.readAll_writes hwords
  rw [read_load h, ofCommand, hread]

/-! ## Behind the load command -/

/-- A load command is asked for exactly where its options can be read. -/
theorem exists_read_load_iff (words : List String) :
    (∃ i, read (before ++ "load" :: words) = .ok i) ↔
      ∃ flags, Reading.readAll LoadFlags.options .empty words = .ok flags := by
  rw [read_load h, ofCommand]
  cases Reading.readAll LoadFlags.options .empty words <;> simp

/-- Options behind the load command are read as they are spelled. -/
theorem exists_read_spelled_iff {gs : List (Given LoadFlags)} {groups : List (List String)}
    (hgs : ∀ g ∈ gs, g.opt ∈ LoadFlags.options) (hgroups : List.Forall₂ Given.Spelled gs groups) :
    (∃ i, read (before ++ "load" :: groups.flatten) = .ok i) ↔
      ∃ flags, Given.putAll gs .empty = .ok flags := by
  have hknown : ∀ g ∈ gs, Known LoadFlags.options g.opt := fun g hg => LoadFlags.known (hgs g hg)
  rw [exists_read_load_iff h, Reading.readAll_spelled hknown hgroups, exists_mapError_eq_ok_iff]

end Read

/-- **Command lines are read back from any of their spellings.** Behind each command its options may
stand in any order, each spelled in any of its ways: the line asks for the command with just these
options, and what is not given has its default. All options can be spelled but a path without
characters. The value of a count is taken where it is a text of a count, and refused everywhere
else. -/
theorem read_written {before : List String} {told : Bool} (h : InFront before told) :
    (∀ flags words, ServeFlags.form.Writes flags words →
      read (before ++ "serve" :: words) = .ok ⟨told || flags.verbose, .serve flags⟩) ∧
    (∀ flags words, LoadFlags.form.Writes flags words →
      read (before ++ "load" :: words) = .ok ⟨told || flags.verbose, .load flags⟩ ∧
      flags.seconds = flags.duration.getD 30 ∧
      flags.plan = ⟨flags.target.getD "http://127.0.0.1:11000", flags.users.getD 10,
        1000 * flags.seconds.toNat, flags.keyLength.getD 4, flags.maxWait.getD 1000⟩) ∧
    (∀ flags : ServeFlags, flags.config ≠ some "" → ∃ words, ServeFlags.form.Writes flags words) ∧
    (∀ flags, ∃ words, LoadFlags.form.Writes flags words) ∧
    (∀ o ∈ LoadFlags.countOptions, ∀ text words, (Given.value o text).Spelled words →
      ((∃ i, read (before ++ "load" :: words) = .ok i) ↔
        ∃ n, Count.CountText text.toList n)) ∧
    (∀ gs groups, (∀ g ∈ gs, g.opt ∈ LoadFlags.options) → List.Forall₂ Given.Spelled gs groups →
      (∃ i, read (before ++ "load" :: groups.flatten) = .ok i) →
      ∀ o ∈ LoadFlags.countOptions, ∀ text, .value o text ∈ gs →
        ∃ n, Count.CountText text.toList n) := by
  refine ⟨fun flags words hwords => read_serve_of_writes h hwords,
    fun flags words hwords => ⟨read_load_of_writes h hwords, rfl, rfl⟩,
    fun flags => ServeFlags.exists_writes, LoadFlags.exists_writes, ?_, ?_⟩
  · intro o ho text words hwords
    have hknown := LoadFlags.known (LoadFlags.value_mem_options ho)
    have hread := Reading.readAll_of_spelled hknown hwords .empty
    rw [exists_read_load_iff h, hread, exists_mapError_eq_ok_iff]
    exact ⟨fun ⟨_, hput⟩ => LoadFlags.countText_of_put ho hput,
      LoadFlags.exists_put_of_countText ho⟩
  · intro gs groups hgs hgroups hread o ho text hmem
    obtain ⟨flags, hputAll⟩ := (exists_read_spelled_iff h hgs hgroups).mp hread
    obtain ⟨_, _, hput⟩ := Given.exists_put_of_putAll hputAll hmem
    exact LoadFlags.countText_of_put ho hput

/-- Values that look like options and commands, the switch on both levels, and the largest count. -/
theorem read_written_in_odd_spellings :
    InFront ["-v"] true ∧
    read ["-v", "serve", "--node-id=--config", "-cload", "--no-metrics", "--verbose",
        "--http-addr", "[::1]:9"] =
      .ok ⟨true, .serve ⟨some "load", some (.v6 ⟨[0, 0, 0, 0, 0, 0, 0, 1], rfl⟩ 0 9), none,
        some "--config", true, true⟩⟩ ∧
    read ["-v", "load", "-u", "+007", "--target", "-", "--max-wait-ms=18446744073709551615"] =
      .ok ⟨true, .load ⟨some "-", some 7, none, none, some 18446744073709551615, false⟩⟩ ∧
    ¬ ∃ i, read ["-v", "load", "-d18446744073709551616"] = .ok i := by
  obtain ⟨hserve, hload, -, -, hcount, -⟩ := read_written .short
  refine ⟨.short, ?_, ?_, ?_⟩
  · refine hserve _ _ (@Form.Writes.mk _ _ ServeFlags.form _
      [.nodeId, .config, .noMetrics, .verbose, .httpAddr] [["--node-id=--config"], ["-cload"],
        ["--no-metrics"], ["--verbose"], ["--http-addr", "[::1]:9"]]
      (by decide) (by rintro ⟨⟩ <;> decide) ?_)
    exact .cons ⟨_, .nodeId rfl, .attached⟩ <|
      .cons ⟨_, .config rfl (by decide), .glued rfl (by decide) (by simp)⟩ <|
      .cons ⟨_, .noMetrics rfl, .switch⟩ <| .cons ⟨_, .verbose rfl, .switch⟩ <|
      .cons ⟨_, .httpAddr rfl (by decide +kernel), .apart (.inr (by simp))⟩ .nil
  · have hmax : Count.CountText "18446744073709551615".toList 18446744073709551615 :=
      Count.read_eq_ok_iff.mp (by decide +kernel)
    refine (hload _ _ (@Form.Writes.mk _ _ LoadFlags.form _ [.users, .target, .maxWait]
      [["-u", "+007"], ["--target", "-"], ["--max-wait-ms=18446744073709551615"]]
      (by decide) (by rintro ⟨⟩ <;> decide) ?_)).1
    exact .cons ⟨_, .users rfl (Count.read_eq_ok_iff.mp (by decide +kernel)),
        .short rfl (.inr (by simp))⟩ <|
      .cons ⟨_, .target rfl, .apart (.inl rfl)⟩ <|
      .cons ⟨_, .maxWait rfl hmax, .attached⟩ .nil
  · have hrefused := hcount LoadFlags.durationOption (by simp [LoadFlags.countOptions])
      "18446744073709551616" ["-d18446744073709551616"] (.glued rfl (by decide) (by simp))
    intro haccepted
    obtain ⟨n, htext⟩ := hrefused.mp haccepted
    have hread := Count.read_eq_ok_iff.mpr htext
    have herror : Count.read "18446744073709551616".toList = .error .tooLarge := by decide +kernel
    rw [herror] at hread
    cases hread

end Invocation

end FrontDoor.CommandLine
