import FrontDoor.Proofs.Recorders.Single
import Mathlib.Data.List.Induction

/-!
# Recorders at one desk

Any number of recorders are started, told of failures and ended in any order, and all record into
the same metrics. A run is a list of such events, and what happened to a recorder is read off the
events that name it. After every run the recorders are what these say (`Follows`), and whatever else
is proved of runs is proved event by event with this at hand (`run_induction`).
-/

namespace FrontDoor

/-- Recorders over shared metrics, in the order in which they were started. One that has ended is no
more. -/
structure Desk where
  metrics : RequestMetrics
  recorders : List (Option Recorder)

namespace Desk

open Recorder (Parting IsStatus)

inductive Event where
  | start (method : Method)
  | fail (recorder : Nat) (status : Nat)
  | finish (recorder : Nat) (parting : Parting) (elapsed : Nat)

/-- The recorder with a number, if it has been started and has not ended. -/
def open? (d : Desk) (i : Nat) : Option Recorder := d.recorders[i]?.join

/-- Lets something happen to one recorder. Only the end of a recorder brings a response. -/
def perform (d : Desk) : Event → Option Response × Desk
  | .start method => (none, { d with recorders := d.recorders ++ [some (.start method)] })
  | .fail i status =>
    match d.open? i with
    | some r =>
      let (r, metrics) := r.fail d.metrics status
      (none, ⟨metrics, d.recorders.set i (some r)⟩)
    | none => (none, d)
  | .finish i parting elapsed =>
    match d.open? i with
    | some r => (r.part parting, ⟨r.finish d.metrics elapsed, d.recorders.set i none⟩)
    | none => (none, d)

def after (d : Desk) (events : List Event) : Desk :=
  events.foldl (fun d event => (d.perform event).2) d

/-- Whether an event can happen: it happens to a recorder that is open, and a failure has a status.
-/
def Allows (d : Desk) : Event → Prop
  | .start _ => True
  | .fail i status => (d.open? i).isSome ∧ IsStatus status
  | .finish i _ _ => (d.open? i).isSome

def Legal : Desk → List Event → Prop
  | _, [] => True
  | d, event :: events => d.Allows event ∧ Legal (d.perform event).2 events

instance (d : Desk) : (event : Event) → Decidable (d.Allows event)
  | .start _ => .isTrue trivial
  | .fail i status => inferInstanceAs (Decidable ((d.open? i).isSome ∧ IsStatus status))
  | .finish i _ _ => inferInstanceAs (Decidable (d.open? i).isSome)

instance decidableLegal : (d : Desk) → (events : List Event) → Decidable (Legal d events)
  | _, [] => .isTrue trivial
  | d, event :: events =>
    have := decidableLegal (d.perform event).2 events
    inferInstanceAs (Decidable (d.Allows event ∧ _))

/-! ## What happened to a recorder -/

def Event.method? : Event → Option Method
  | .start method => some method
  | _ => none

def Event.failure? (i : Nat) : Event → Option Nat
  | .fail j status => if j = i then some status else none
  | _ => none

def Event.ends (i : Nat) : Event → Bool
  | .finish j _ _ => j = i
  | _ => false

/-- The methods of the recorders that were started. -/
def methods (events : List Event) : List Method := events.filterMap Event.method?

/-- The failures that a recorder was told of. -/
def failuresOf (events : List Event) (i : Nat) : List Nat := events.filterMap (Event.failure? i)

/-- How often a recorder was ended. -/
def endings (events : List Event) (i : Nat) : Nat := events.countP (Event.ends i)

/-- Whether a recorder was started for a method. -/
def serves (events : List Event) (i : Nat) (method : String) : Bool :=
  (methods events)[i]?.any (·.name = method)

variable {d : Desk} {events : List Event} {event : Event} {i : Nat}

theorem after_concat (d : Desk) (events : List Event) (event : Event) :
    d.after (events ++ [event]) = ((d.after events).perform event).2 := List.foldl_append

theorem legal_concat :
    Legal d (events ++ [event]) ↔ Legal d events ∧ (d.after events).Allows event := by
  induction events generalizing d with
  | nil => exact ⟨fun h => ⟨trivial, h.1⟩, fun h => ⟨h.2, trivial⟩⟩
  | cons first events ih =>
    rw [List.cons_append, Legal, Legal, ih, and_assoc]
    rfl

section Concat

variable {parting : Parting} {status elapsed j : Nat} {method : Method}

theorem methods_start : methods (events ++ [.start method]) = methods events ++ [method] :=
  List.filterMap_append

theorem methods_fail : methods (events ++ [.fail i status]) = methods events :=
  List.filterMap_append.trans (List.append_nil _)

theorem methods_finish : methods (events ++ [.finish i parting elapsed]) = methods events :=
  List.filterMap_append.trans (List.append_nil _)

theorem failuresOf_start : failuresOf (events ++ [.start method]) = failuresOf events :=
  funext fun _ => List.filterMap_append.trans (List.append_nil _)

theorem failuresOf_fail : failuresOf (events ++ [.fail i status]) j =
    failuresOf events j ++ if i = j then [status] else [] := by
  refine List.filterMap_append.trans (congrArg (failuresOf events j ++ ·) ?_)
  rw [List.filterMap_cons, List.filterMap_nil, Event.failure?]
  by_cases h : i = j
  · rw [if_pos h, if_pos h]
  · rw [if_neg h, if_neg h]

theorem failuresOf_finish :
    failuresOf (events ++ [.finish i parting elapsed]) = failuresOf events :=
  funext fun _ => List.filterMap_append.trans (List.append_nil _)

theorem endings_start : endings (events ++ [.start method]) = endings events :=
  funext fun _ => List.countP_append

theorem endings_fail : endings (events ++ [.fail i status]) = endings events :=
  funext fun _ => List.countP_append

theorem endings_finish : endings (events ++ [.finish i parting elapsed]) j =
    endings events j + if i = j then 1 else 0 := by
  rw [endings, List.countP_append, List.countP_singleton, Event.ends]
  simp only [decide_eq_true_eq]
  rfl

end Concat

/-- What a run has made of its recorders: an open one has the method it was started with and the
first failure it was told of, and has not ended; any other has ended once, or was never started. -/
structure Follows (events : List Event) (d : Desk) : Prop where
  length : d.recorders.length = (methods events).length
  opened : ∀ i r, d.open? i = some r →
    (methods events)[i]? = some r.method ∧ r.failure? = (failuresOf events i).head? ∧
      endings events i = 0
  ended : ∀ i, i < d.recorders.length → d.open? i = none → endings events i = 1
  absent : ∀ i, d.recorders.length ≤ i → failuresOf events i = [] ∧ endings events i = 0

theorem lt_of_open? {r : Recorder} (h : d.open? i = some r) : i < d.recorders.length := by
  unfold open? at h
  rw [Option.join_eq_some_iff] at h
  exact (List.getElem?_eq_some_iff.mp h).1

theorem open?_set (d : Desk) {i : Nat} (hi : i < d.recorders.length) (m : RequestMetrics)
    (r? : Option Recorder) (j : Nat) :
    open? ⟨m, d.recorders.set i r?⟩ j = if i = j then r? else d.open? j := by
  unfold open?
  rw [List.getElem?_set]
  split
  · rfl
  · rfl

theorem open?_concat (d : Desk) (r : Recorder) (j : Nat) :
    open? { d with recorders := d.recorders ++ [some r] } j =
      if j = d.recorders.length then some r else d.open? j := by
  unfold open?
  rcases Nat.lt_trichotomy j d.recorders.length with hlt | rfl | hgt
  · rw [List.getElem?_append_left hlt, if_neg (Nat.ne_of_lt hlt)]
  · rw [List.getElem?_concat_length, if_pos rfl]
    rfl
  · rw [List.getElem?_eq_none (by simp; omega), if_neg (Nat.ne_of_gt hgt),
      List.getElem?_eq_none (Nat.le_of_lt hgt)]

theorem perform_fail {r : Recorder} (h : d.open? i = some r) (status : Nat) :
    (d.perform (.fail i status)).2 =
      ⟨(r.fail d.metrics status).2, d.recorders.set i (some (r.fail d.metrics status).1)⟩ := by
  rw [perform, h]

theorem perform_finish {r : Recorder} (h : d.open? i = some r) (parting : Parting) (elapsed : Nat) :
    d.perform (.finish i parting elapsed) =
      (r.part parting, ⟨r.finish d.metrics elapsed, d.recorders.set i none⟩) := by
  rw [perform, h]

theorem Follows.start (h : Follows events d) (method : Method) :
    Follows (events ++ [.start method]) (d.perform (.start method)).2 := by
  have hlength : (d.perform (.start method)).2.recorders.length = d.recorders.length + 1 :=
    List.length_append
  constructor
  case length =>
    rw [hlength, methods_start, List.length_append, h.length]
    rfl
  case opened =>
    intro j r hj
    rw [failuresOf_start, endings_start, methods_start]
    rw [perform, open?_concat] at hj
    split at hj
    · next hlast =>
      obtain rfl := Option.some.inj hj
      obtain ⟨hnone, hzero⟩ := h.absent j (Nat.le_of_eq hlast.symm)
      rw [hnone, hlast.trans h.length, List.getElem?_concat_length]
      exact ⟨rfl, rfl, hlast.trans h.length ▸ hzero⟩
    · obtain ⟨hmethod, hfirst, hzero⟩ := h.opened j r hj
      rw [List.getElem?_append_left (h.length ▸ lt_of_open? hj)]
      exact ⟨hmethod, hfirst, hzero⟩
  case ended =>
    intro j hlt hj
    rw [endings_start]
    rw [hlength] at hlt
    rw [perform, open?_concat] at hj
    split at hj
    · cases hj
    · exact h.ended j (by omega) hj
  case absent =>
    intro j hle
    rw [failuresOf_start, endings_start]
    exact h.absent j (by omega)

/-- An event that names one recorder leaves the others as they were. -/
theorem Follows.set (h : Follows events d) (hi : i < d.recorders.length) {later : List Event}
    (m : RequestMetrics) (r? : Option Recorder) (hmethods : methods later = methods events)
    (hothers : ∀ j, i ≠ j →
      failuresOf later j = failuresOf events j ∧ endings later j = endings events j)
    (hopen : ∀ r, r? = some r → (methods events)[i]? = some r.method ∧
      r.failure? = (failuresOf later i).head? ∧ endings later i = 0)
    (hended : r? = none → endings later i = 1) : Follows later ⟨m, d.recorders.set i r?⟩ := by
  constructor
  case length =>
    rw [hmethods, List.length_set]
    exact h.length
  case opened =>
    intro j r hj
    rw [hmethods]
    rw [open?_set d hi] at hj
    split at hj
    · next heq => exact heq ▸ hopen r hj
    · next hne =>
      rw [(hothers j hne).1, (hothers j hne).2]
      exact h.opened j r hj
  case ended =>
    intro j hlt hj
    rw [List.length_set] at hlt
    rw [open?_set d hi] at hj
    split at hj
    · next heq => exact heq ▸ hended hj
    · next hne =>
      rw [(hothers j hne).2]
      exact h.ended j hlt hj
  case absent =>
    intro j hle
    rw [List.length_set] at hle
    have hne : i ≠ j := by omega
    rw [(hothers j hne).1, (hothers j hne).2]
    exact h.absent j hle

theorem Follows.fail (h : Follows events d) {r : Recorder} (hr : d.open? i = some r)
    (status : Nat) : Follows (events ++ [.fail i status]) (d.perform (.fail i status)).2 := by
  obtain ⟨hmethod, hfirst, hzero⟩ := h.opened i r hr
  rw [perform_fail hr]
  refine h.set (lt_of_open? hr) _ _ methods_fail (fun j hne => ?_) ?_ nofun
  · rw [failuresOf_fail, endings_fail, if_neg hne, List.append_nil]
    exact ⟨rfl, rfl⟩
  · rintro _ ⟨rfl⟩
    rw [endings_fail, failuresOf_fail, if_pos rfl, List.head?_append, ← hfirst]
    exact ⟨hmethod, rfl, hzero⟩

theorem Follows.finish (h : Follows events d) {r : Recorder} (hr : d.open? i = some r)
    (parting : Parting) (elapsed : Nat) :
    Follows (events ++ [.finish i parting elapsed]) (d.perform (.finish i parting elapsed)).2 := by
  rw [perform_finish hr]
  refine h.set (lt_of_open? hr) _ _ methods_finish (fun j hne => ?_) nofun fun _ => ?_
  · rw [failuresOf_finish, endings_finish, if_neg hne]
    exact ⟨rfl, rfl⟩
  · rw [endings_finish, (h.opened i r hr).2.2, if_pos rfl]

/-- The desk with some metrics before anything is recorded. -/
def empty (m : RequestMetrics) : Desk := ⟨m, []⟩

variable {m : RequestMetrics}

theorem follows_nil : Follows [] (empty m) where
  length := rfl
  opened _ _ hj := absurd (lt_of_open? hj) (Nat.not_lt_zero _)
  ended _ hlt := absurd hlt (Nat.not_lt_zero _)
  absent _ _ := ⟨rfl, rfl⟩

theorem Follows.perform (h : Follows events d) (hallows : d.Allows event) :
    Follows (events ++ [event]) (d.perform event).2 := by
  cases event with
  | start method => exact h.start method
  | fail i status =>
    obtain ⟨r, hr⟩ := Option.isSome_iff_exists.mp hallows.1
    exact h.fail hr status
  | finish i parting elapsed =>
    obtain ⟨r, hr⟩ := Option.isSome_iff_exists.mp hallows
    exact h.finish hr parting elapsed

theorem follows_after (h : Legal (empty m) events) : Follows events ((empty m).after events) := by
  induction events using List.reverseRecOn with
  | nil => exact follows_nil
  | append_singleton events event ih =>
    obtain ⟨hlegal, hallows⟩ := legal_concat.mp h
    rw [after_concat]
    exact (ih hlegal).perform hallows

/-- What holds before anything happens and is kept by every event holds after every run. An event
that names a recorder finds it open, as the run so far has made it. -/
theorem run_induction {motive : (events : List Event) → Legal (empty m) events → Prop}
    (nil : motive [] trivial)
    (start : ∀ events method (before : Legal (empty m) events) later,
      Follows events ((empty m).after events) → motive events before →
        motive (events ++ [.start method]) later)
    (fail : ∀ events i status r (before : Legal (empty m) events) later,
      ((empty m).after events).open? i = some r → (methods events)[i]? = some r.method →
        IsStatus status → motive events before → motive (events ++ [.fail i status]) later)
    (finish : ∀ events i parting elapsed r (before : Legal (empty m) events) later,
      ((empty m).after events).open? i = some r → (methods events)[i]? = some r.method →
        motive events before → motive (events ++ [.finish i parting elapsed]) later)
    (events : List Event) (h : Legal (empty m) events) : motive events h := by
  -- From the end, where one event more has happened.
  induction events using List.reverseRecOn with
  | nil => exact nil
  | append_singleton events event ih =>
    obtain ⟨hlegal, hallows⟩ := legal_concat.mp h
    have hfollows := follows_after hlegal
    cases event with
    | start method => exact start events method hlegal h hfollows (ih hlegal)
    | fail i status =>
      obtain ⟨r, hr⟩ := Option.isSome_iff_exists.mp hallows.1
      exact fail events i status r hlegal h hr (hfollows.opened i r hr).1 hallows.2 (ih hlegal)
    | finish i parting elapsed =>
      obtain ⟨r, hr⟩ := Option.isSome_iff_exists.mp hallows
      exact finish events i parting elapsed r hlegal h hr (hfollows.opened i r hr).1 (ih hlegal)

end Desk

end FrontDoor
