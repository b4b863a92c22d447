import FrontDoor.Load.Drive
import Mathlib.Algebra.BigOperators.Group.List.Basic
import Mathlib.Algebra.BigOperators.Group.Finset.Piecewise

/-!
# What a report counts

Reports add up like numbers, and a report of tasks is the sum of what each of them is counted as. So
the reports of all users together are the report of all tasks, in whatever order these were served
(`merge_reportOf`), and its tallies count the statuses of either kind of task (`tally_ofTasks`). The
report of a run is that of the tasks performed in it (`report_drive`).
-/

namespace FrontDoor

/-! ## Tallies -/

namespace Tally

attribute [ext] Tally

instance : Zero Tally := ⟨zero⟩

instance : AddCommMonoid Tally where
  add_assoc r s t := Tally.ext (Nat.add_assoc ..) (Nat.add_assoc ..) (Nat.add_assoc ..)
    (Nat.add_assoc ..)
  zero_add t := Tally.ext (Nat.zero_add _) (Nat.zero_add _) (Nat.zero_add _) (Nat.zero_add _)
  add_zero t := rfl
  add_comm s t := Tally.ext (Nat.add_comm ..) (Nat.add_comm ..) (Nat.add_comm ..)
    (Nat.add_comm ..)
  nsmul := nsmulRec

/-- The tally of tasks with the given statuses. -/
def ofStatuses (statuses : List (Option Nat)) : Tally := statuses.foldl record zero

theorem ofStatuses_append_singleton (statuses : List (Option Nat)) (status? : Option Nat) :
    ofStatuses (statuses ++ [status?]) = (ofStatuses statuses).record status? := List.foldl_append

theorem record_eq (t : Tally) (status? : Option Nat) :
    t.record status? = t + zero.record status? := by
  cases status? with
  | none => rfl
  | some status =>
    unfold record
    dsimp only
    split
    · rfl
    · split <;> rfl

/-- Every status is counted once: as a success, as an error of the server, or, when it is neither,
as an error of the client; a missing one counts for the transport. -/
theorem ofStatuses_eq (statuses : List (Option Nat)) :
    ofStatuses statuses =
      ⟨statuses.countP (·.any (· / 100 = 2)),
        statuses.countP (·.any fun status => status / 100 ≠ 2 ∧ status / 100 ≠ 5),
        statuses.countP (·.any (· / 100 = 5)), statuses.countP (·.isNone)⟩ := by
  induction statuses using List.reverseRecOn with
  | nil => rfl
  | append_singleton statuses status? ih =>
    rw [ofStatuses_append_singleton, ih]
    simp only [List.countP_append, List.countP_singleton]
    cases status? with
    | none => rfl
    | some status =>
      unfold record
      dsimp only
      split
      · next h => simp [h]
      · split
        · next h => simp [h]
        · next h h' => simp [h, h']

theorem total_ofStatuses (statuses : List (Option Nat)) :
    (ofStatuses statuses).total = statuses.length := by
  induction statuses using List.reverseRecOn with
  | nil => rfl
  | append_singleton statuses status? ih =>
    rw [ofStatuses_append_singleton, List.length_append, List.length_singleton, ← ih]
    cases status? with
    | none => rfl
    | some status =>
      unfold record total
      dsimp only
      split
      · dsimp only; omega
      · split <;> (dsimp only; omega)

end Tally

/-! ## Reports -/

namespace LoadReport

attribute [ext] LoadReport

instance : Zero LoadReport := ⟨zero⟩

instance : AddCommMonoid LoadReport where
  add_assoc r s t := LoadReport.ext (add_assoc ..) (add_assoc ..)
  zero_add r := LoadReport.ext (zero_add _) (zero_add _)
  add_zero r := rfl
  add_comm r s := LoadReport.ext (add_comm ..) (add_comm ..)
  nsmul := nsmulRec

theorem merge_eq_sum (reports : List LoadReport) : merge reports = reports.sum :=
  List.sum_eq_foldl.symm

/-- What one task is counted as. -/
def ofTask (task : Performed) : LoadReport := zero.record task

theorem record_eq (r : LoadReport) (task : Performed) : r.record task = r + ofTask task := by
  obtain ⟨kind, status?⟩ := task
  cases kind with
  | write => exact LoadReport.ext (Tally.record_eq r.writes status?) (add_zero r.reads).symm
  | read => exact LoadReport.ext (add_zero r.writes).symm (Tally.record_eq r.reads status?)

theorem ofTasks_append_singleton (tasks : List Performed) (task : Performed) :
    ofTasks (tasks ++ [task]) = (ofTasks tasks).record task := List.foldl_append

theorem ofTasks_eq_sum (tasks : List Performed) : ofTasks tasks = (tasks.map ofTask).sum := by
  induction tasks using List.reverseRecOn with
  | nil => rfl
  | append_singleton tasks task ih =>
    rw [ofTasks_append_singleton, record_eq, ih, List.map_append, List.sum_append]
    simp

/-- The tally of a kind of task. -/
def tally (r : LoadReport) : TaskKind → Tally
  | .write => r.writes
  | .read => r.reads

/-- What became of the tasks of a kind. -/
def statuses (kind : TaskKind) (tasks : List Performed) : List (Option Nat) :=
  (tasks.filter (·.kind = kind)).map (·.status?)

theorem tally_ofTasks (tasks : List Performed) (kind : TaskKind) :
    (ofTasks tasks).tally kind = .ofStatuses (statuses kind tasks) := by
  induction tasks using List.reverseRecOn with
  | nil => cases kind <;> rfl
  | append_singleton tasks task ih =>
    obtain ⟨kind', status?⟩ := task
    rw [ofTasks_append_singleton, statuses, List.filter_append, List.map_append, ← statuses]
    by_cases h : kind' = kind
    · subst h
      rw [List.filter_cons_of_pos (by simp)]
      refine .trans ?_ (Tally.ofStatuses_append_singleton _ status?).symm
      rw [← ih]
      cases kind' <;> rfl
    · rw [List.filter_cons_of_neg (by simpa using h), List.filter_nil, List.map_nil,
        List.append_nil, ← ih]
      cases kind <;> cases kind' <;> first | rfl | exact absurd rfl h

theorem reportOf_eq_sum (done : List (Nat × Performed)) (user : Nat) :
    LoadPlan.reportOf done user =
      (done.map fun e => if e.1 = user then ofTask e.2 else 0).sum := by
  rw [LoadPlan.reportOf, ofTasks_eq_sum, List.map_map]
  induction done with
  | nil => rfl
  | cons e done ih =>
    rw [List.map_cons, List.sum_cons, ← ih]
    by_cases h : e.1 = user
    · rw [List.filter_cons_of_pos (by simpa using h), if_pos h]
      rfl
    · rw [List.filter_cons_of_neg (by simpa using h), if_neg h, zero_add]

/-- The reports of all users together are the report of all tasks. -/
theorem merge_reportOf {done : List (Nat × Performed)} {users : Nat}
    (h : ∀ e ∈ done, e.1 < users) :
    merge ((List.range users).map (LoadPlan.reportOf done)) = ofTasks (done.map (·.2)) := by
  rw [merge_eq_sum, ofTasks_eq_sum, List.map_map]
  have hsum : ∀ f : Nat → LoadReport,
      ((List.range users).map f).sum = ∑ u ∈ Finset.range users, f u :=
    fun f => rfl
  rw [hsum]
  simp only [reportOf_eq_sum]
  induction done with
  | nil => simp
  | cons e done ih =>
    have htail := ih fun e' he' => h e' (List.mem_cons_of_mem e he')
    simp only [List.map_cons, List.sum_cons, Finset.sum_add_distrib, htail]
    rw [Finset.sum_ite_eq, if_pos (Finset.mem_range.mpr (h e List.mem_cons_self))]
    rfl

end LoadReport

/-! ## Runs -/

namespace LoadPlan

variable {σ : Type} (p : LoadPlan) (send : Transport σ)

/-- Every turn is performed once, by its user and as the task that it is. -/
theorem performed_turns (st : σ) (turns : List Turn) :
    (p.performAll send st turns).1.map (fun e => (e.1, e.2.kind)) =
      turns.map fun turn => (turn.user, turn.task.kind) := by
  induction turns generalizing st with
  | nil => rfl
  | cons turn turns ih =>
    have hkind : (p.perform send st turn.task).1.kind = turn.task.kind := by
      unfold perform
      split <;> rfl
    rw [performAll, List.map_cons, List.map_cons, ih, hkind]

/-- The report of a run is that of all tasks that were performed in it. -/
theorem report_drive (st : σ) {turns : List Turn}
    (husers : ∀ turn ∈ turns, turn.user < p.users.toNat) :
    (p.drive send st turns).1 = .ofTasks ((p.performAll send st turns).1.map (·.2)) := by
  have hdone : ∀ e ∈ (p.performAll send st turns).1, e.1 < p.users.toNat := by
    intro e he
    have hmem := List.mem_map_of_mem (f := fun e : Nat × Performed => (e.1, e.2.kind)) he
    rw [performed_turns] at hmem
    obtain ⟨turn, hturn, heq⟩ := List.mem_map.mp hmem
    rw [← (Prod.mk.inj heq).1]
    exact husers turn hturn
  exact LoadReport.merge_reportOf hdone

/-- As many tasks of a kind end in some way as were performed. -/
theorem length_statuses (kind : TaskKind) (st : σ) (turns : List Turn) :
    (LoadReport.statuses kind ((p.performAll send st turns).1.map (·.2))).length =
      turns.countP (·.task.kind = kind) := by
  have hkinds := congrArg (List.countP (·.2 = kind)) (p.performed_turns send st turns)
  rw [List.countP_map, List.countP_map] at hkinds
  rw [LoadReport.statuses, List.length_map, ← List.countP_eq_length_filter, List.countP_map]
  exact hkinds

theorem total_drive (kind : TaskKind) (st : σ) {turns : List Turn}
    (husers : ∀ turn ∈ turns, turn.user < p.users.toNat) :
    ((p.drive send st turns).1.tally kind).total = turns.countP (·.task.kind = kind) := by
  rw [p.report_drive send st husers, LoadReport.tally_ofTasks, Tally.total_ofStatuses,
    length_statuses]

/-- Where all tasks of a kind end alike, they are counted in one place. -/
theorem tally_drive {kind : TaskKind} {status? : Option Nat} {st : σ} {turns : List Turn}
    (husers : ∀ turn ∈ turns, turn.user < p.users.toNat)
    (h : ∀ e ∈ (p.performAll send st turns).1, e.2.kind = kind → e.2.status? = status?) :
    (p.drive send st turns).1.tally kind =
      .ofStatuses (List.replicate (turns.countP (·.task.kind = kind)) status?) := by
  rw [p.report_drive send st husers, LoadReport.tally_ofTasks]
  congr 1
  refine List.eq_replicate_iff.mpr ⟨p.length_statuses send kind st turns, fun other hmem => ?_⟩
  obtain ⟨task, htask, rfl⟩ := List.mem_map.mp hmem
  obtain ⟨hdone, hkind⟩ := List.mem_filter.mp htask
  obtain ⟨e, he, rfl⟩ := List.mem_map.mp hdone
  exact h e he (of_decide_eq_true hkind)

end LoadPlan

end FrontDoor
