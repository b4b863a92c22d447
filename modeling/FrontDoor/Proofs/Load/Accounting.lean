import FrontDoor.Proofs.Load.Report

/-!
# Reports account for every task

A report accounts for tasks when its tallies say of either kind how many ended in what way
(`Accounts`). The report of tasks does (`accounts_ofTasks`), and the reports of users together are
the report of all their tasks (`merge_map_ofTasks`), so no merging loses a task or counts one twice.
-/

namespace FrontDoor

namespace LoadReport

/-- The counts of a report, by kind of task: successes, errors of the server, requests without a
response, and all other statuses. Together these are the tasks of the kind. -/
structure Accounts (r : LoadReport) (tasks : List Performed) : Prop where
  ok : ∀ kind, (r.tally kind).ok =
    tasks.countP fun t => t.kind = kind && t.status?.any fun s => 200 ≤ s && s < 300
  serverErrors : ∀ kind, (r.tally kind).serverErrors =
    tasks.countP fun t => t.kind = kind && t.status?.any fun s => 500 ≤ s && s < 600
  transportErrors : ∀ kind, (r.tally kind).transportErrors =
    tasks.countP fun t => t.kind = kind && t.status?.isNone
  clientErrors : ∀ kind, (r.tally kind).clientErrors =
    tasks.countP fun t => t.kind = kind && t.status?.any fun s =>
      !(200 ≤ s && s < 300) && !(500 ≤ s && s < 600)
  total : ∀ kind, (r.tally kind).total = tasks.countP fun t => t.kind = kind

/-! ## Tasks -/

/-- What is counted of the statuses of a kind is counted of its tasks. -/
theorem countP_statuses (P Q : Option Nat → Bool) (h : ∀ status?, P status? = Q status?)
    (kind : TaskKind) (tasks : List Performed) :
    (statuses kind tasks).countP P = tasks.countP fun t => t.kind = kind && Q t.status? := by
  rw [statuses, List.countP_map, List.countP_filter]
  refine List.countP_congr fun t _ => ?_
  rw [Function.comp_apply, h, Bool.and_comm]

/-- The century of a status is one of the hundred statuses from there on. -/
theorem div_eq_iff_century (s n : Nat) : (s / 100 = n) ↔ 100 * n ≤ s ∧ s < 100 * n + 100 := by
  omega

theorem accounts_ofTasks (tasks : List Performed) : (ofTasks tasks).Accounts tasks where
  ok kind := by
    rw [tally_ofTasks, Tally.ofStatuses_eq]
    refine countP_statuses _ _ (fun status? => ?_) kind tasks
    cases status? <;> simp [div_eq_iff_century]
  serverErrors kind := by
    rw [tally_ofTasks, Tally.ofStatuses_eq]
    refine countP_statuses _ _ (fun status? => ?_) kind tasks
    cases status? <;> simp [div_eq_iff_century]
  transportErrors kind := by
    rw [tally_ofTasks, Tally.ofStatuses_eq]
    exact countP_statuses _ _ (fun _ => rfl) kind tasks
  clientErrors kind := by
    rw [tally_ofTasks, Tally.ofStatuses_eq]
    refine countP_statuses _ _ (fun status? => ?_) kind tasks
    rw [Bool.eq_iff_iff]
    cases status? <;> simp [div_eq_iff_century]
  total kind := by
    rw [tally_ofTasks, Tally.total_ofStatuses, statuses, List.length_map,
      List.countP_eq_length_filter]

/-! ## Users -/

/-- The reports of users together are the report of all their tasks. -/
theorem merge_map_ofTasks (users : List (List Performed)) :
    merge (users.map ofTasks) = ofTasks users.flatten := by
  have hsums : users.map ofTasks = (users.map (List.map ofTask)).map List.sum := by
    rw [List.map_map]
    exact List.map_congr_left fun tasks _ => ofTasks_eq_sum tasks
  rw [merge_eq_sum, hsums, ← List.sum_flatten, ← List.map_flatten, ofTasks_eq_sum]

theorem merge_perm {reports reports' : List LoadReport} (h : reports.Perm reports') :
    merge reports = merge reports' := by
  rw [merge_eq_sum, merge_eq_sum, h.sum_eq]

/-- **Reports account for every task, once.** Whatever became of the tasks of any number of users,
their reports merged in any order are one report, and it accounts for all tasks. In particular the
report of a run does, in which every turn of a user is one task. -/
theorem reports_account_for_all_tasks :
    (∀ (users : List (List Performed)) (reports : List LoadReport),
        reports.Perm (users.map ofTasks) →
          (merge reports).Accounts users.flatten ∧ merge reports = merge (users.map ofTasks)) ∧
      ∀ {σ : Type} (p : LoadPlan) (send : Transport σ) (st : σ) (turns : List Turn),
        (∀ turn ∈ turns, turn.user < p.users.toNat) →
          (p.drive send st turns).1.Accounts ((p.performAll send st turns).1.map (·.2)) ∧
            (p.performAll send st turns).1.map (fun e => (e.1, e.2.kind)) =
              turns.map fun turn => (turn.user, turn.task.kind) := by
  constructor
  · intro users reports hperm
    have hmerge := merge_perm hperm
    refine ⟨?_, hmerge⟩
    rw [hmerge, merge_map_ofTasks]
    exact accounts_ofTasks users.flatten
  · intro σ p send st turns husers
    refine ⟨?_, p.performed_turns send st turns⟩
    rw [p.report_drive send st husers]
    exact accounts_ofTasks _

/-- Two users whose tasks end in all ways, with their reports merged from the last, and a run in
which every request is lost. -/
theorem two_users_accounted :
    let users : List (List Performed) :=
      [[⟨.write, some 204⟩, ⟨.read, some 301⟩],
        [⟨.write, some 503⟩, ⟨.read, none⟩, ⟨.read, some 404⟩]]
    let p : LoadPlan := ⟨"http://h", 2, 0, 4, 0⟩
    let turns : List Turn := [⟨1, ⟨.read, ⟨0, 0, 0⟩⟩⟩, ⟨0, ⟨.write, ⟨0, 0, 0⟩⟩⟩]
    (users.map ofTasks).reverse.Perm (users.map ofTasks) ∧
      (merge (users.map ofTasks).reverse).Accounts users.flatten ∧
      merge (users.map ofTasks) = ⟨⟨1, 0, 1, 0⟩, ⟨0, 2, 0, 1⟩⟩ ∧
      (∀ turn ∈ turns, turn.user < p.users.toNat) ∧
      (p.drive Transport.lost () turns).1.Accounts
        ((p.performAll Transport.lost () turns).1.map (·.2)) := by
  intro users p turns
  have husers : ∀ turn ∈ turns, turn.user < p.users.toNat := by decide
  obtain ⟨haccounts, -⟩ := reports_account_for_all_tasks.1 users _ (List.reverse_perm _)
  exact ⟨List.reverse_perm _, haccounts, by decide, husers,
    (reports_account_for_all_tasks.2 p Transport.lost () turns husers).1⟩

end LoadReport

end FrontDoor
