import FrontDoor.CommandLine.Load
import FrontDoor.CommandLine.Serve
import FrontDoor.Proofs.Address.Socket
import FrontDoor.Proofs.CommandLine.Spelling
import FrontDoor.Proofs.Number.Counts

/-!
# Flags as slots

The flags of a command are slots, one for each of its options. While options are read, the flags are
those of the end with some slots still empty (`Form.putAll_only`). So the order does not matter, and
words that spell what is in each slot once are read as these flags (`Form.readAll_writes`). There
are such words for all flags that a command can have (`Form.exists_writes`).
-/

namespace FrontDoor.CommandLine

/-- Flags `α` with slots `κ`: which options there are, and how they fill the slots. -/
structure Form (α κ : Type) where
  opts : List (Opt α)
  empty : α
  /-- Whether something is in a slot. -/
  gives : α → κ → Bool
  /-- Whether an option tells what is in a slot. -/
  Tells : α → κ → Given α → Prop
  /-- The flags with some of their slots, and the others empty. -/
  only : α → List κ → α
  known : ∀ {f slot g}, Tells f slot g → Known opts g.opt
  put_only : ∀ {f slot g done}, Tells f slot g → slot ∉ done →
    g.put (only f done) = .ok (only f (slot :: done))
  only_nil : ∀ {f}, only f [] = empty
  only_eq_self : ∀ {f slots}, (∀ slot, slot ∈ slots ↔ gives f slot = true) → only f slots = f

namespace Form

variable {α κ : Type} (form : Form α κ) {f : α} {slots : List κ} {groups : List (List String)}

/-- The words of an option that tells what is in a slot. -/
def Spells (f : α) (slot : κ) (words : List String) : Prop :=
  ∃ g, form.Tells f slot g ∧ g.Spelled words

/-- Words that write some flags: the slots in any order, each with the words of one option. -/
inductive Writes (f : α) : List String → Prop where
  | mk {slots : List κ} {groups : List (List String)} : slots.Nodup →
      (∀ slot, slot ∈ slots ↔ form.gives f slot = true) →
      List.Forall₂ (form.Spells f) slots groups → Writes f groups.flatten

/-- Options for different slots fill these, one after the other. -/
theorem putAll_only {done : List κ} {gs : List (Given α)}
    (hgs : List.Forall₂ (form.Tells f) slots gs) (hslots : slots.Nodup)
    (hdone : ∀ slot ∈ slots, slot ∉ done) :
    Given.putAll gs (form.only f done) = .ok (form.only f (slots.reverse ++ done)) := by
  -- What is kept along the way is that the slots to come are still empty.
  induction hgs generalizing done with
  | nil => rfl
  | @cons slot g slots gs hg _ ih =>
    obtain ⟨hslot, hslots⟩ := List.nodup_cons.mp hslots
    have hrest : ∀ slot' ∈ slots, slot' ∉ slot :: done := by
      intro slot' hslot' hmem
      rcases List.mem_cons.mp hmem with rfl | hmem
      · exact hslot hslot'
      · exact hdone slot' (List.mem_cons_of_mem slot hslot') hmem
    have hfirst := form.put_only hg (hdone slot List.mem_cons_self)
    have hall : Given.putAll (g :: gs) (form.only f done) =
        (g.put (form.only f done)).bind (Given.putAll gs) := rfl
    rw [hall, hfirst, Except.bind, ih hslots hrest, List.reverse_cons, List.append_assoc]
    rfl

/-- The options that some words spell, none of which can be mistaken. -/
theorem exists_given (h : List.Forall₂ (form.Spells f) slots groups) :
    ∃ gs, List.Forall₂ (form.Tells f) slots gs ∧ List.Forall₂ Given.Spelled gs groups ∧
      ∀ g ∈ gs, Known form.opts g.opt := by
  induction h with
  | nil => exact ⟨[], .nil, .nil, by simp⟩
  | cons hfirst _ ih =>
    obtain ⟨g, hg, hspelled⟩ := hfirst
    obtain ⟨gs, hgs, hgroups, hknown⟩ := ih
    exact ⟨g :: gs, .cons hg hgs, .cons hspelled hgroups,
      List.forall_mem_cons.mpr ⟨form.known hg, hknown⟩⟩

/-- **Flags are read back from the words that write them.** -/
theorem readAll_writes {words : List String} (h : form.Writes f words) :
    Reading.readAll form.opts form.empty words = .ok f := by
  obtain ⟨hslots, hfilled, hgroups⟩ := h
  obtain ⟨gs, hgs, hspelled, hknown⟩ := form.exists_given hgroups
  have hput := form.putAll_only hgs hslots fun _ _ => List.not_mem_nil
  rw [form.only_nil, List.append_nil,
    form.only_eq_self fun slot => List.mem_reverse.trans (hfilled slot)] at hput
  rw [Reading.readAll_spelled hknown hspelled, hput]
  rfl

/-- Flags can be written where what is in each of their slots can be spelled. -/
theorem exists_writes (all : List κ) (hall : all.Nodup) (hmem : ∀ slot, slot ∈ all)
    (h : ∀ slot, form.gives f slot = true → ∃ words, form.Spells f slot words) :
    ∃ words, form.Writes f words := by
  choose! words hwords using h
  have hfilled : ∀ slot, slot ∈ all.filter (form.gives f) ↔ form.gives f slot = true := by
    simp [hmem]
  have hgroups : List.Forall₂ (form.Spells f) (all.filter (form.gives f))
      ((all.filter (form.gives f)).map words) :=
    List.forall₂_map_right_iff.mpr
      (List.forall₂_same.mpr fun slot hslot => hwords slot ((hfilled slot).mp hslot))
  exact ⟨_, .mk (hall.filter _) hfilled hgroups⟩

end Form

/-- What is only kept where there is something is kept as it is. -/
theorem ite_eq_self_of_iff_isSome {β : Type} {o : Option β} {p : Prop} [Decidable p]
    (h : p ↔ o.isSome = true) : (if p then o else none) = o := by
  cases o <;> simp_all

theorem decide_and_eq_self {b : Bool} {p : Prop} [Decidable p] (h : p ↔ b = true) :
    (decide p && b) = b := by
  cases b <;> simp_all

/-! ## The serve command -/

/-- What can be given to the serve command. -/
inductive ServeSlot where
  | config
  | httpAddr
  | metricsAddr
  | nodeId
  | noMetrics
  | verbose
  deriving DecidableEq

namespace ServeFlags

variable {f : ServeFlags} {slot : ServeSlot} {g : Given ServeFlags} {slots done : List ServeSlot}

def gives (f : ServeFlags) : ServeSlot → Bool
  | .config => f.config.isSome
  | .httpAddr => f.httpAddr.isSome
  | .metricsAddr => f.metricsAddr.isSome
  | .nodeId => f.nodeId.isSome
  | .noMetrics => f.noMetrics
  | .verbose => f.verbose

/-- An option with a text of what is in a slot. The path of a file is not empty, and an address may
have any text that is read as this address. -/
inductive Tells (f : ServeFlags) : ServeSlot → Given ServeFlags → Prop where
  | config {path : String} : f.config = some path → path ≠ "" →
      Tells f .config (.value configOption path)
  | httpAddr {a : SocketAddress} {text : String} : f.httpAddr = some a →
      SocketAddress.read? text = some a → Tells f .httpAddr (.value httpAddrOption text)
  | metricsAddr {a : SocketAddress} {text : String} : f.metricsAddr = some a →
      SocketAddress.read? text = some a → Tells f .metricsAddr (.value metricsAddrOption text)
  | nodeId {id : String} : f.nodeId = some id → Tells f .nodeId (.value nodeIdOption id)
  | noMetrics : f.noMetrics = true → Tells f .noMetrics (.switch noMetricsSwitch)
  | verbose : f.verbose = true → Tells f .verbose (.switch verboseSwitch)

def only (f : ServeFlags) (slots : List ServeSlot) : ServeFlags where
  config := if .config ∈ slots then f.config else none
  httpAddr := if .httpAddr ∈ slots then f.httpAddr else none
  metricsAddr := if .metricsAddr ∈ slots then f.metricsAddr else none
  nodeId := if .nodeId ∈ slots then f.nodeId else none
  noMetrics := .noMetrics ∈ slots && f.noMetrics
  verbose := .verbose ∈ slots && f.verbose

theorem known {o : Opt ServeFlags} (h : o ∈ options) : Known options o := by
  simp only [options, List.mem_cons, List.not_mem_nil, or_false] at h
  rcases h with rfl | rfl | rfl | rfl | rfl | rfl | rfl <;>
    exact ⟨rfl, by rintro _ ⟨⟩ <;> rfl, by decide, by decide⟩

theorem opt_mem_of_tells (h : Tells f slot g) : g.opt ∈ options := by
  cases h <;> simp [Given.opt, options]

theorem readAddress_of_read? {text : String} {a : SocketAddress}
    (h : SocketAddress.read? text = some a) : readAddress text = .ok a := by
  rw [readAddress, h]

/-- An option that tells what is in a slot fills it. -/
theorem put_only (h : Tells f slot g) (hfree : slot ∉ done) :
    g.put (f.only done) = .ok (f.only (slot :: done)) := by
  cases h with
  | config hpath hne =>
    refine ValueOption.give_eq_ok_iff.mpr ⟨?_, fun hempty => absurd hempty hne, ?_⟩ <;>
      simp [configOption, only, hpath, hfree]
  | httpAddr ha htext =>
    refine ValueOption.give_eq_ok_iff.mpr ⟨?_, fun _ => rfl, ?_⟩ <;>
      simp [httpAddrOption, only, ha, readAddress_of_read? htext, hfree, Except.map]
  | metricsAddr ha htext =>
    refine ValueOption.give_eq_ok_iff.mpr ⟨?_, fun _ => rfl, ?_⟩ <;>
      simp [metricsAddrOption, only, ha, readAddress_of_read? htext, hfree, Except.map]
  | nodeId hid =>
    refine ValueOption.give_eq_ok_iff.mpr ⟨?_, fun _ => rfl, ?_⟩ <;>
      simp [nodeIdOption, only, hid, hfree]
  | noMetrics h => simp [Given.put, Switch.give, noMetricsSwitch, only, h, hfree]
  | verbose h => simp [Given.put, Switch.give, verboseSwitch, only, h, hfree]

theorem only_eq_self (h : ∀ slot, slot ∈ slots ↔ f.gives slot = true) : f.only slots = f := by
  have hnoMetrics : (decide (.noMetrics ∈ slots) && f.noMetrics) = f.noMetrics :=
    decide_and_eq_self (h .noMetrics)
  have hverbose : (decide (.verbose ∈ slots) && f.verbose) = f.verbose :=
    decide_and_eq_self (h .verbose)
  rw [only, ite_eq_self_of_iff_isSome (h .config), ite_eq_self_of_iff_isSome (h .httpAddr),
    ite_eq_self_of_iff_isSome (h .metricsAddr), ite_eq_self_of_iff_isSome (h .nodeId),
    hnoMetrics, hverbose]

/-- The serve command: a slot for each option. -/
def form : Form ServeFlags ServeSlot where
  opts := options
  empty := empty
  gives := gives
  Tells := Tells
  only := only
  known h := known (opt_mem_of_tells h)
  put_only := put_only
  only_nil := rfl
  only_eq_self := only_eq_self

/-- All flags of the serve command can be written but the one for a file without a path. -/
theorem exists_writes (h : f.config ≠ some "") : ∃ words, form.Writes f words := by
  refine form.exists_writes [.config, .httpAddr, .metricsAddr, .nodeId, .noMetrics, .verbose]
    (by decide) (by rintro ⟨⟩ <;> decide) ?_
  intro slot hslot
  cases slot with
  | config =>
    obtain ⟨path, hpath⟩ := Option.isSome_iff_exists.mp hslot
    have hne : path ≠ "" := by
      rintro rfl
      exact h hpath
    exact ⟨_, _, .config hpath hne, .attached⟩
  | httpAddr =>
    obtain ⟨a, ha⟩ := Option.isSome_iff_exists.mp hslot
    exact ⟨_, _, .httpAddr ha a.read?_text, .attached⟩
  | metricsAddr =>
    obtain ⟨a, ha⟩ := Option.isSome_iff_exists.mp hslot
    exact ⟨_, _, .metricsAddr ha a.read?_text, .attached⟩
  | nodeId =>
    obtain ⟨id, hid⟩ := Option.isSome_iff_exists.mp hslot
    exact ⟨_, _, .nodeId hid, .attached⟩
  | noMetrics => exact ⟨_, _, .noMetrics hslot, .switch⟩
  | verbose => exact ⟨_, _, .verbose hslot, .switch⟩

end ServeFlags

/-! ## The load command -/

/-- What can be given to the load command. -/
inductive LoadSlot where
  | target
  | users
  | duration
  | keyLength
  | maxWait
  | verbose
  deriving DecidableEq

namespace LoadFlags

variable {f : LoadFlags} {slot : LoadSlot} {g : Given LoadFlags} {slots done : List LoadSlot}

def gives (f : LoadFlags) : LoadSlot → Bool
  | .target => f.target.isSome
  | .users => f.users.isSome
  | .duration => f.duration.isSome
  | .keyLength => f.keyLength.isSome
  | .maxWait => f.maxWait.isSome
  | .verbose => f.verbose

/-- An option with a text of what is in a slot. A count may have any of its texts. -/
inductive Tells (f : LoadFlags) : LoadSlot → Given LoadFlags → Prop where
  | target {url : String} : f.target = some url → Tells f .target (.value targetOption url)
  | users {n : UInt64} {text : String} : f.users = some n → Count.CountText text.toList n →
      Tells f .users (.value usersOption text)
  | duration {n : UInt64} {text : String} : f.duration = some n → Count.CountText text.toList n →
      Tells f .duration (.value durationOption text)
  | keyLength {n : UInt64} {text : String} : f.keyLength = some n →
      Count.CountText text.toList n → Tells f .keyLength (.value keyLengthOption text)
  | maxWait {n : UInt64} {text : String} : f.maxWait = some n → Count.CountText text.toList n →
      Tells f .maxWait (.value maxWaitOption text)
  | verbose : f.verbose = true → Tells f .verbose (.switch verboseSwitch)

def only (f : LoadFlags) (slots : List LoadSlot) : LoadFlags where
  target := if .target ∈ slots then f.target else none
  users := if .users ∈ slots then f.users else none
  duration := if .duration ∈ slots then f.duration else none
  keyLength := if .keyLength ∈ slots then f.keyLength else none
  maxWait := if .maxWait ∈ slots then f.maxWait else none
  verbose := .verbose ∈ slots && f.verbose

theorem known {o : Opt LoadFlags} (h : o ∈ options) : Known options o := by
  simp only [options, List.mem_cons, List.not_mem_nil, or_false] at h
  rcases h with rfl | rfl | rfl | rfl | rfl | rfl | rfl <;>
    exact ⟨rfl, by rintro _ ⟨⟩ <;> rfl, by decide, by decide⟩

theorem opt_mem_of_tells (h : Tells f slot g) : g.opt ∈ options := by
  cases h <;> simp [Given.opt, options]

theorem readCount_eq_ok_iff {text : String} {n : UInt64} :
    readCount text = .ok n ↔ Count.CountText text.toList n := by
  rw [← Count.read_eq_ok_iff, readCount]
  cases Count.read text.toList <;> simp [Except.mapError]

/-- An option that tells what is in a slot fills it. -/
theorem put_only (h : Tells f slot g) (hfree : slot ∉ done) :
    g.put (f.only done) = .ok (f.only (slot :: done)) := by
  cases h with
  | target hurl =>
    refine ValueOption.give_eq_ok_iff.mpr ⟨?_, fun _ => rfl, ?_⟩ <;>
      simp [targetOption, only, hurl, hfree]
  | users hn htext =>
    refine ValueOption.give_eq_ok_iff.mpr ⟨?_, fun _ => rfl, ?_⟩ <;>
      simp [usersOption, only, hn, readCount_eq_ok_iff.mpr htext, hfree, Except.map]
  | duration hn htext =>
    refine ValueOption.give_eq_ok_iff.mpr ⟨?_, fun _ => rfl, ?_⟩ <;>
      simp [durationOption, only, hn, readCount_eq_ok_iff.mpr htext, hfree, Except.map]
  | keyLength hn htext =>
    refine ValueOption.give_eq_ok_iff.mpr ⟨?_, fun _ => rfl, ?_⟩ <;>
      simp [keyLengthOption, only, hn, readCount_eq_ok_iff.mpr htext, hfree, Except.map]
  | maxWait hn htext =>
    refine ValueOption.give_eq_ok_iff.mpr ⟨?_, fun _ => rfl, ?_⟩ <;>
      simp [maxWaitOption, only, hn, readCount_eq_ok_iff.mpr htext, hfree, Except.map]
  | verbose h => simp [Given.put, Switch.give, verboseSwitch, only, h, hfree]

theorem only_eq_self (h : ∀ slot, slot ∈ slots ↔ f.gives slot = true) : f.only slots = f := by
  have hverbose : (decide (.verbose ∈ slots) && f.verbose) = f.verbose :=
    decide_and_eq_self (h .verbose)
  rw [only, ite_eq_self_of_iff_isSome (h .target), ite_eq_self_of_iff_isSome (h .users),
    ite_eq_self_of_iff_isSome (h .duration), ite_eq_self_of_iff_isSome (h .keyLength),
    ite_eq_self_of_iff_isSome (h .maxWait), hverbose]

/-- The load command: a slot for each option. -/
def form : Form LoadFlags LoadSlot where
  opts := options
  empty := empty
  gives := gives
  Tells := Tells
  only := only
  known h := known (opt_mem_of_tells h)
  put_only := put_only
  only_nil := rfl
  only_eq_self := only_eq_self

/-- All flags of the load command can be written. -/
theorem exists_writes (f : LoadFlags) : ∃ words, form.Writes f words := by
  refine form.exists_writes [.target, .users, .duration, .keyLength, .maxWait, .verbose]
    (by decide) (by rintro ⟨⟩ <;> decide) ?_
  intro slot hslot
  cases slot with
  | target =>
    obtain ⟨url, hurl⟩ := Option.isSome_iff_exists.mp hslot
    exact ⟨_, _, .target hurl, .attached⟩
  | users =>
    obtain ⟨n, hn⟩ := Option.isSome_iff_exists.mp hslot
    exact ⟨_, _, .users hn (Count.countText_text n), .attached⟩
  | duration =>
    obtain ⟨n, hn⟩ := Option.isSome_iff_exists.mp hslot
    exact ⟨_, _, .duration hn (Count.countText_text n), .attached⟩
  | keyLength =>
    obtain ⟨n, hn⟩ := Option.isSome_iff_exists.mp hslot
    exact ⟨_, _, .keyLength hn (Count.countText_text n), .attached⟩
  | maxWait =>
    obtain ⟨n, hn⟩ := Option.isSome_iff_exists.mp hslot
    exact ⟨_, _, .maxWait hn (Count.countText_text n), .attached⟩
  | verbose => exact ⟨_, _, .verbose hslot, .switch⟩

end LoadFlags

end FrontDoor.CommandLine
