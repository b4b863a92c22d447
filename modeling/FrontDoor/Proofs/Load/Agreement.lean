import FrontDoor.Proofs.Door.Accounting
import FrontDoor.Proofs.Door.Contents
import FrontDoor.Proofs.Json.RoundTrip
import FrontDoor.Proofs.Load.Report
import FrontDoor.Proofs.Load.Requests

/-!
# The load generator and the door agree

What the generator sends is what the door reads: every request is about keys, a write is one entry
and a read carries the key that was meant, so nothing goes wrong but that a read may lack its key
(`faults_requestOf`). A run of the generator is a run of the door with these requests
(`exists_visits`), and the statuses, the metrics and the data that it leaves can be read off the
tasks. So the report, the metrics and the size of the store tell the same story
(`drive_agrees`). Only over an address that is no host of a URL there is nothing to tell: every task
is lost (`drive_of_scope`).
-/

namespace FrontDoor

/-- Every request is served by the door in the state of a transport, with its entries in some order
and after some time, and the status of the response comes back. -/
def Transport.Delivers {σ τ : Type} (send : Transport τ) (s : Store σ) (door : τ → Door σ) : Prop :=
  ∀ st request, ∃ v : Visit, v.request = request ∧
    (send st request).1 = some (Door.visit s (door st) v).1.status ∧
    door (send st request).2 = (Door.visit s (door st) v).2

theorem Transport.toDoor_delivers {σ : Type} (s : Store σ) (order : EntryOrder) :
    (Transport.toDoor s order).Delivers s id :=
  fun _ request => ⟨⟨request, order, 0⟩, rfl, rfl, rfl⟩

/-- Without faults nothing is counted as a failure. -/
theorem Door.failures_after {σ : Type} (s : Store σ) {visits : List Visit} (door : Door σ)
    (h : faultLog s door visits = []) :
    (after s door visits).metrics.failures = door.metrics.failures := by
  induction visits generalizing door with
  | nil => rfl
  | cons v visits ih =>
    obtain ⟨hv, hrest⟩ := List.append_eq_nil_iff.mp h
    rw [after_cons, ih _ hrest]
    by_cases hkey : Route.IsKeyPath v.request.path
    · rw [visitFaults, if_pos hkey, List.map_eq_nil_iff] at hv
      rw [metrics_visit_of_key s door v hkey, hv]
      rfl
    · rw [metrics_visit_of_not_key s door v hkey]

namespace LoadPlan

open Door (keyOf faults faultLog visit after)
open MemoryStore (store)

variable {p : LoadPlan}

/-! ## What the door reads -/

theorem decode_path (p : LoadPlan) (t : LoadTask) :
    Percent.decode (p.requestOf t).path = Utf8.encode (p.path t) := by
  have hpercent : ∀ c ∈ "/key0123456789abcdef-".toList, asciiByte c ≠ asciiByte '%' :=
    List.all_iff_forall_prop.mp (by decide)
  refine Percent.decode_of_not_mem fun h => ?_
  have hmem : asciiByte '%' ∈ Utf8.encode (p.path t) := h
  rw [Utf8.encode_ascii (isAscii_path p t)] at hmem
  obtain ⟨c, hc, heq⟩ := List.mem_map.mp hmem
  exact hpercent c (chars_path t c hc) heq

theorem isKeyPath_requestOf (p : LoadPlan) (t : LoadTask) :
    Route.IsKeyPath (p.requestOf t).path := by
  rw [Route.IsKeyPath, decode_path, path]
  cases t.kind with
  | write => exact List.prefix_rfl
  | read => exact ⟨Utf8.encode ('/' :: (p.key t).toList), (Utf8.encode_append _ _).symm⟩

theorem keyOf_requestOf {t : LoadTask} (h : t.kind = .read) : keyOf (p.requestOf t) = p.key t := by
  have hdecode := decode_path p t
  rw [path, h] at hdecode
  rw [keyOf, Route.keyOf_readPath (slash_not_mem_key p t) hdecode, String.ofList_toList]

/-- The body of a write is one entry: the key and the whole identifier. -/
theorem read?_body {t : LoadTask} (h : t.kind = .write) :
    StringMap.read? (p.requestOf t).body = some (.ofList [(p.key t, t.uuid.text)]) := by
  have hread := Json.read?_stringObject Json.speaks_encode Json.legible_plain
    [(p.key t, t.uuid.text)] []
  rw [List.append_nil] at hread
  rw [requestOf, body, h]
  exact hread

/-! ## What goes wrong with a task -/

/-- A read without a key goes wrong, and nothing else does. -/
def faultsOf (p : LoadPlan) (t : LoadTask) : List Nat :=
  match t.kind with
  | .write => []
  | .read => if p.keyLength = 0 then [badRequest] else []

theorem faults_requestOf (p : LoadPlan) (t : LoadTask) (order : EntryOrder) (st : MemoryStore) :
    faults store order st (p.requestOf t) = p.faultsOf t := by
  unfold faults faultsOf
  cases hkind : t.kind with
  | write =>
    have hmethod : (p.requestOf t).method.name = "POST" := by rw [requestOf, hkind]; rfl
    rw [hmethod, if_neg (by decide), if_pos rfl, read?_body hkind]
    dsimp only
    rw [MemoryStore.setAll_store]
    rfl
  | read =>
    have hmethod : (p.requestOf t).method.name = "GET" := by rw [requestOf, hkind]; rfl
    rw [hmethod, if_pos rfl, keyOf_requestOf hkind]
    simp only [key_eq_empty_iff]
    exact List.append_nil _

/-- The status with which a task is answered. -/
def statusOf (p : LoadPlan) (t : LoadTask) : Nat := (p.faultsOf t).head?.getD statusOk

theorem statusOf_write {t : LoadTask} (h : t.kind = .write) : p.statusOf t = 200 := by
  rw [statusOf, faultsOf, h]
  rfl

theorem statusOf_read {t : LoadTask} (h : t.kind = .read) :
    p.statusOf t = if p.keyLength = 0 then 400 else 200 := by
  rw [statusOf, faultsOf, h]
  dsimp only
  split <;> rfl

theorem status_visit {t : LoadTask} {v : Visit} (h : v.request = p.requestOf t)
    (door : Door MemoryStore) : (visit store door v).1.status = p.statusOf t := by
  have hkey : Route.IsKeyPath v.request.path := by rw [h]; exact isKeyPath_requestOf p t
  rw [Door.visit_status store door hkey, Door.failures_outcome, h, faults_requestOf, statusOf]

/-- A write gives a value to its key, and a read leaves the values alone. -/
theorem keys_after_requestOf (c : Contents) (t : LoadTask) :
    (c.after (p.requestOf t)).keys ⊆ c.keys ∪ {k | t.kind = .write ∧ k = p.key t} := by
  rw [Contents.after, if_pos (isKeyPath_requestOf p t)]
  cases hkind : t.kind with
  | write =>
    have hmethod : (p.requestOf t).method.name = "POST" := by rw [requestOf, hkind]; rfl
    rw [if_pos hmethod, read?_body hkind]
    intro k hk
    have hget : (Dictionary.ofList [(p.key t, t.uuid.text)]).get? k =
        if k = p.key t then some t.uuid.text else none := Dictionary.get?_insert ..
    have hk : ((if k = p.key t then some t.uuid.text else none).or (c k)).isSome = true := by
      rw [← hget]
      exact hk
    split at hk
    · next heq => exact .inr ⟨rfl, heq⟩
    · exact .inl hk
  | read =>
    have hmethod : (p.requestOf t).method.name = "GET" := by rw [requestOf, hkind]; rfl
    rw [if_neg (by rw [hmethod]; decide), if_neg (by rw [hmethod]; decide)]
    exact Set.subset_union_left

/-! ## Runs -/

/-- What is known of a task once it is done. -/
def performed (p : LoadPlan) (turn : Turn) : Nat × Performed :=
  (turn.user, ⟨turn.task.kind, some (p.statusOf turn.task)⟩)

variable {τ : Type} {send : Transport τ} {door : τ → Door MemoryStore}

/-- A run of tasks is a run of the door. -/
theorem exists_visits (hrequest : ∀ t, p.request? t = some (p.requestOf t))
    (hsend : send.Delivers store door) (st : τ) (turns : List Turn) :
    ∃ visits : List Visit, visits.map Visit.request = turns.map (p.requestOf ·.task) ∧
      door (p.performAll send st turns).2 = after store (door st) visits ∧
      (p.performAll send st turns).1 = turns.map p.performed := by
  induction turns generalizing st with
  | nil => exact ⟨[], rfl, rfl, rfl⟩
  | cons turn turns ih =>
    obtain ⟨v, hv, hstatus, hdoor⟩ := hsend st (p.requestOf turn.task)
    rw [status_visit hv] at hstatus
    have hperform : p.perform send st turn.task =
        (⟨turn.task.kind, some (p.statusOf turn.task)⟩, (send st (p.requestOf turn.task)).2) := by
      rw [perform, hrequest]
      dsimp only
      rw [← hstatus]
    obtain ⟨visits, hrequests, hafter, hdone⟩ := ih (send st (p.requestOf turn.task)).2
    refine ⟨v :: visits, ?_, ?_, ?_⟩
    · rw [List.map_cons, List.map_cons, hv, hrequests]
    · rw [performAll, hperform]
      dsimp only
      rw [hafter, Door.after_cons, hdoor]
    · rw [performAll, hperform]
      dsimp only
      rw [hdone]
      rfl

section Visits

variable {visits : List Visit} {turns : List Turn}
  (hvisits : visits.map Visit.request = turns.map (p.requestOf ·.task))
include hvisits

/-- Every request is counted under the method of its task. -/
theorem countP_visits (kind : TaskKind) :
    (visits.countP fun v => v.request.method = methodOf kind ∧ Route.IsKeyPath v.request.path) =
      turns.countP (·.task.kind = kind) := by
  have hmethod : ∀ kind', methodOf kind' = methodOf kind ↔ kind' = kind := by
    intro kind'
    cases kind' <;> cases kind <;> decide
  calc visits.countP (fun v => v.request.method = methodOf kind ∧ Route.IsKeyPath v.request.path)
      = (visits.map Visit.request).countP
          (fun r => r.method = methodOf kind ∧ Route.IsKeyPath r.path) := by
        rw [List.countP_map]
        rfl
    _ = turns.countP (fun turn => (p.requestOf turn.task).method = methodOf kind ∧
          Route.IsKeyPath (p.requestOf turn.task).path) := by rw [hvisits, List.countP_map]; rfl
    _ = turns.countP (·.task.kind = kind) := by
        simp only [isKeyPath_requestOf, and_true]
        refine List.countP_congr fun turn _ => ?_
        rw [decide_eq_true_eq, decide_eq_true_eq]
        exact hmethod turn.task.kind

theorem faultLog_visits (door : Door MemoryStore) :
    faultLog store door visits =
      turns.flatMap fun turn => (p.faultsOf turn.task).map (methodOf turn.task.kind, ·) := by
  induction turns generalizing visits door with
  | nil =>
    obtain rfl := List.map_eq_nil_iff.mp hvisits
    rfl
  | cons turn turns ih =>
    obtain ⟨v, rest, rfl, hv, hrest⟩ := List.map_eq_cons_iff.mp hvisits
    have hkey : Route.IsKeyPath v.request.path := by rw [hv]; exact isKeyPath_requestOf p turn.task
    rw [faultLog, ih hrest, List.flatMap_cons, Door.visitFaults, if_pos hkey, hv,
      faults_requestOf]
    rfl

omit hvisits in
/-- Without keys every read goes wrong once, and nothing else does. -/
theorem count_faults (hlength : p.keyLength = 0) (turns : List Turn) :
    (turns.flatMap fun turn => (p.faultsOf turn.task).map (methodOf turn.task.kind, ·)).count
      (Method.get, 400) = turns.countP (·.task.kind = .read) := by
  induction turns with
  | nil => rfl
  | cons turn turns ih =>
    rw [List.flatMap_cons, List.count_append, ih, List.countP_cons, Nat.add_comm, faultsOf]
    congr 1
    cases turn.task.kind with
    | write => rfl
    | read =>
      dsimp only
      rw [if_pos hlength]
      decide

/-- The keys that have a value after a run are keys that were written. -/
theorem keys_after_visits (nodeId addr : String) (metrics : RequestMetrics) :
    (after store ⟨.new nodeId addr, metrics⟩ visits).store.held.keys ⊆
      {k | ∃ turn ∈ turns, turn.task.kind = .write ∧ k = p.key turn.task} := by
  rw [Door.held_after_new, hvisits]
  clear hvisits
  unfold Contents.ofRequests
  induction turns using List.reverseRecOn with
  | nil =>
    rintro k ⟨⟩
  | append_singleton turns turn ih =>
    rw [List.map_append, List.foldl_append]
    refine (keys_after_requestOf _ turn.task).trans (Set.union_subset ?_ ?_)
    · refine ih.trans ?_
      rintro k ⟨turn', hmem, hk⟩
      exact ⟨turn', List.mem_append_left _ hmem, hk⟩
    · rintro k hk
      exact ⟨turn, List.mem_append_right _ List.mem_cons_self, hk⟩

end Visits

/-! ## Agreement -/

/-- What is so whatever the length of the keys: every write is answered with 200 and reported as
well, and of either kind of task as many are reported as were performed and as the node has
served. -/
structure Agreement (turns : List Turn) (done : List (Nat × Performed)) (report : LoadReport)
    (node : Door MemoryStore) : Prop where
  writes_answered : ∀ e ∈ done, e.2.kind = .write → e.2.status? = some 200
  writes_ok : report.writes.ok = report.writes.total
  writes_performed : report.writes.total = turns.countP (·.task.kind = .write)
  writes_served : report.writes.total = (node.metrics.requestCount "/key" "POST").1
  reads_performed : report.reads.total = turns.countP (·.task.kind = .read)
  reads_served : report.reads.total = (node.metrics.requestCount "/key" "GET").1

/-- Nothing goes wrong: reads are answered and reported like writes, no error counter moves, and
there are no more keys than writes. -/
structure Flawless (turns : List Turn) (done : List (Nat × Performed)) (report : LoadReport)
    (node : Door MemoryStore) : Prop extends Agreement turns done report node where
  answered : ∀ e ∈ done, e.2.status? = some 200
  reads_ok : report.reads.ok = report.reads.total
  no_errors : ∀ endpoint method status, (node.metrics.errorCount endpoint method status).1 = 0
  keys_le : node.store.len ≤ report.writes.ok

/-- Every read is answered with 400, reported and counted as one error of the client, and there is
at most one key. -/
structure Keyless (turns : List Turn) (done : List (Nat × Performed)) (report : LoadReport)
    (node : Door MemoryStore) : Prop extends Agreement turns done report node where
  reads_answered : ∀ e ∈ done, e.2.kind = .read → e.2.status? = some 400
  reads_refused : report.reads.clientErrors = report.reads.total
  errors_counted : (node.metrics.errorCount "/key" "GET" 400).1 = report.reads.total
  keys_le_one : node.store.len ≤ 1

section Run

variable (hrequest : ∀ t, p.request? t = some (p.requestOf t)) (hsend : send.Delivers store door)
  {st : τ} {nodeId addr : String} (hstart : door st = ⟨.new nodeId addr, .new⟩) {turns : List Turn}
  (husers : ∀ turn ∈ turns, turn.user < p.users.toNat)

include hrequest hsend in
/-- What is known of the tasks of a kind that are always answered alike. -/
theorem answered_of_kind {kind : TaskKind} {status : Nat}
    (h : ∀ t : LoadTask, t.kind = kind → p.statusOf t = status) :
    ∀ e ∈ (p.performAll send st turns).1, e.2.kind = kind → e.2.status? = some status := by
  obtain ⟨-, -, -, hdone⟩ := exists_visits hrequest hsend st turns
  intro e he hkind
  rw [hdone] at he
  obtain ⟨turn, -, rfl⟩ := List.mem_map.mp he
  exact congrArg some (h turn.task hkind)

include hrequest hsend husers

theorem tally_drive_eq_ok {kind : TaskKind}
    (h : ∀ t : LoadTask, t.kind = kind → p.statusOf t = 200) :
    (p.drive send st turns).1.tally kind = ⟨turns.countP (·.task.kind = kind), 0, 0, 0⟩ := by
  rw [p.tally_drive send husers (answered_of_kind hrequest hsend h)]
  simp [Tally.ofStatuses_eq, List.countP_replicate]

theorem tally_drive_eq_clientErrors {kind : TaskKind}
    (h : ∀ t : LoadTask, t.kind = kind → p.statusOf t = 400) :
    (p.drive send st turns).1.tally kind = ⟨0, turns.countP (·.task.kind = kind), 0, 0⟩ := by
  rw [p.tally_drive send husers (answered_of_kind hrequest hsend h)]
  simp [Tally.ofStatuses_eq, List.countP_replicate]

include hstart

/-- What is so whatever the length of the keys. -/
theorem agreement :
    Agreement turns (p.performAll send st turns).1 (p.drive send st turns).1
      (door (p.drive send st turns).2) := by
  have hwrites : (p.drive send st turns).1.tally .write = ⟨_, 0, 0, 0⟩ :=
    tally_drive_eq_ok hrequest hsend husers fun t => statusOf_write
  have hserved : ∀ kind, turns.countP (·.task.kind = kind) =
      ((door (p.drive send st turns).2).metrics.requestCount "/key" (methodOf kind).name).1 := by
    intro kind
    obtain ⟨visits, hvisits, hdoor, -⟩ := exists_visits hrequest hsend st turns
    have hcount := Door.requests_after store (door st) visits (methodOf kind)
    rw [countP_visits hvisits, ← hdoor, hstart] at hcount
    exact (hcount.trans (Nat.zero_add _)).symm
  refine ⟨answered_of_kind hrequest hsend fun t => statusOf_write, ?_,
    p.total_drive send .write st husers, ?_, p.total_drive send .read st husers, ?_⟩
  · show ((p.drive send st turns).1.tally .write).ok =
      ((p.drive send st turns).1.tally .write).total
    rw [hwrites]
    rfl
  · exact (p.total_drive send .write st husers).trans (hserved .write)
  · exact (p.total_drive send .read st husers).trans (hserved .read)

omit husers

theorem keys_drive :
    (door (p.drive send st turns).2).store.held.keys ⊆
      {k | ∃ turn ∈ turns, turn.task.kind = .write ∧ k = p.key turn.task} := by
  obtain ⟨visits, hvisits, hdoor, -⟩ := exists_visits hrequest hsend st turns
  have hkeys := keys_after_visits hvisits nodeId addr .new
  rw [← hstart, ← hdoor] at hkeys
  exact hkeys

/-- Every key that is left was written by some task. -/
theorem len_le_countP :
    (door (p.drive send st turns).2).store.len ≤ turns.countP (·.task.kind = .write) := by
  have hkeys : (door (p.drive send st turns).2).store.held.keys.encard ≤ _ :=
    Set.encard_le_encard (keys_drive hrequest hsend hstart)
  have hwrites : {k | ∃ turn ∈ turns, turn.task.kind = .write ∧ k = p.key turn.task} =
      (((turns.filter (·.task.kind = .write)).map (p.key ·.task)).toFinset : Set String) := by
    ext k
    simp [and_assoc, eq_comm]
  rw [← MemoryStore.len_eq_encard, hwrites, Set.encard_coe_eq_coe_finsetCard,
    Nat.cast_le] at hkeys
  refine hkeys.trans ((List.toFinset_card_le _).trans ?_)
  rw [List.length_map, ← List.countP_eq_length_filter]

/-- Over keys of some length no failure is counted. -/
theorem failures_drive (hlength : p.keyLength ≠ 0) :
    (door (p.drive send st turns).2).metrics.failures = .empty := by
  obtain ⟨visits, hvisits, hdoor, -⟩ := exists_visits hrequest hsend st turns
  have hnone : ∀ t : LoadTask, p.faultsOf t = [] := by
    intro t
    unfold faultsOf
    split
    · rfl
    · rw [if_neg hlength]
  have hfaults : faultLog store (door st) visits = [] := by
    rw [faultLog_visits hvisits]
    simp [hnone]
  have hafter := Door.failures_after store (door st) hfaults
  rw [← hdoor, hstart] at hafter
  exact hafter

include husers

theorem flawless (hlength : p.keyLength ≠ 0) :
    Flawless turns (p.performAll send st turns).1 (p.drive send st turns).1
      (door (p.drive send st turns).2) := by
  have hstatus : ∀ t : LoadTask, p.statusOf t = 200 := by
    intro t
    cases hkind : t.kind with
    | write => exact statusOf_write hkind
    | read => rw [statusOf_read hkind, if_neg hlength]
  have hall (kind : TaskKind) : (p.drive send st turns).1.tally kind = ⟨_, 0, 0, 0⟩ :=
    tally_drive_eq_ok hrequest hsend husers fun t _ => hstatus t
  refine ⟨agreement hrequest hsend hstart husers, fun e he =>
    answered_of_kind hrequest hsend (fun t _ => hstatus t) e he rfl, ?_, ?_, ?_⟩
  · show ((p.drive send st turns).1.tally .read).ok = ((p.drive send st turns).1.tally .read).total
    rw [hall .read]
    rfl
  · intro endpoint method status
    rw [RequestMetrics.errorCount, failures_drive hrequest hsend hstart hlength]
    rfl
  · show _ ≤ ((p.drive send st turns).1.tally .write).ok
    rw [hall .write]
    exact len_le_countP hrequest hsend hstart

theorem keyless (hlength : p.keyLength = 0) :
    Keyless turns (p.performAll send st turns).1 (p.drive send st turns).1
      (door (p.drive send st turns).2) := by
  have hstatus : ∀ t : LoadTask, t.kind = .read → p.statusOf t = 400 := by
    intro t hkind
    rw [statusOf_read hkind, if_pos hlength]
  have hreads : (p.drive send st turns).1.tally .read = ⟨0, _, 0, 0⟩ :=
    tally_drive_eq_clientErrors hrequest hsend husers hstatus
  refine ⟨agreement hrequest hsend hstart husers, answered_of_kind hrequest hsend hstatus,
    ?_, ?_, ?_⟩
  · show ((p.drive send st turns).1.tally .read).clientErrors =
      ((p.drive send st turns).1.tally .read).total
    rw [hreads]
    simp [Tally.total]
  · obtain ⟨visits, hvisits, hdoor, -⟩ := exists_visits hrequest hsend st turns
    have hcount := Door.errors_after store (door st) visits .get
      (show 100 ≤ 400 by decide) (by decide)
    rw [faultLog_visits hvisits, ← hdoor, hstart] at hcount
    refine (hcount.trans (Nat.zero_add _)).trans ?_
    refine .trans ?_ (p.total_drive send .read st husers).symm
    exact count_faults hlength turns
  · have hone : (door (p.drive send st turns).2).store.held.keys ⊆ {""} := by
      rintro k hk
      obtain ⟨turn, -, -, rfl⟩ := keys_drive hrequest hsend hstart hk
      exact (key_eq_empty_iff turn.task).mpr hlength
    have hkeys := Set.encard_le_encard hone
    rw [← MemoryStore.len_eq_encard, Set.encard_singleton] at hkeys
    exact_mod_cast hkeys

end Run

/-! ## Addresses with a scope -/

/-- Without requests every task is lost, and nothing is sent. -/
theorem performAll_of_no_request {τ : Type} (hnone : ∀ t, p.request? t = none)
    (send : Transport τ) (st : τ) (turns : List Turn) :
    p.performAll send st turns =
      (turns.map fun turn => (turn.user, ⟨turn.task.kind, none⟩), st) := by
  induction turns with
  | nil => rfl
  | cons turn turns ih =>
    rw [performAll, perform, hnone]
    dsimp only
    rw [ih]
    rfl

/-- **An address with a scope is never reached.** It is no host of a URL, so over any transport
every task ends without a response, nothing is sent to whatever there is, and the report counts all
tasks as errors of the transport and none in any other way. -/
theorem drive_of_scope {τ : Type} (p : LoadPlan) (a : SocketAddress) (slashes : Nat)
    (send : Transport τ) (st : τ) (turns : List Turn)
    (htarget : p.target = "http://" ++ a.text ++ String.ofList (List.replicate slashes '/'))
    (hscope : a.scope ≠ 0) (husers : ∀ turn ∈ turns, turn.user < p.users.toNat) :
    let done := (p.performAll send st turns).1
    let (report, st') := p.drive send st turns
    done = turns.map (fun turn => (turn.user, ⟨turn.task.kind, none⟩)) ∧ st' = st ∧
      ∀ kind, report.tally kind = ⟨0, 0, 0, turns.countP (·.task.kind = kind)⟩ := by
  have hall := performAll_of_no_request (request?_of_scope htarget hscope) send st turns
  have hlost : ∀ e ∈ (p.performAll send st turns).1, e.2.status? = none := by
    intro e he
    rw [hall] at he
    obtain ⟨turn, -, rfl⟩ := List.mem_map.mp he
    rfl
  refine ⟨congrArg Prod.fst hall, congrArg Prod.snd hall, fun kind => ?_⟩
  refine (p.tally_drive send husers fun e he _ => hlost e he).trans ?_
  simp [Tally.ofStatuses_eq, List.countP_replicate]

/-! ## Addresses that can be reached -/

/-- **The load generator and the door agree.** Let the target be a socket address behind the scheme
with any number of slashes, and let users perform any tasks in any order over a transport that
delivers every request to a door in front of an empty node with fresh metrics. Over keys of some
length nothing goes wrong; over empty keys exactly the reads do. An address with a scope is no host
of a URL, and over it there is no request to deliver; what a run comes to then says
`drive_of_scope`. -/
theorem drive_agrees {τ : Type} (p : LoadPlan) (a : SocketAddress) (slashes : Nat)
    (send : Transport τ) (door : τ → Door MemoryStore) (st : τ) (nodeId addr : String)
    (turns : List Turn)
    (htarget : p.target = "http://" ++ a.text ++ String.ofList (List.replicate slashes '/'))
    (hsend : send.Delivers MemoryStore.store door) (hstart : door st = ⟨.new nodeId addr, .new⟩)
    (husers : ∀ turn ∈ turns, turn.user < p.users.toNat) :
    let done := (p.performAll send st turns).1
    let (report, st') := p.drive send st turns
    if a.scope = 0 then
      if p.keyLength = 0 then Keyless turns done report (door st')
      else Flawless turns done report (door st')
    else ∀ t, p.request? t = none := by
  dsimp only
  split
  · next hscope =>
    have hrequest := request?_eq htarget hscope
    split
    · next hlength => exact keyless hrequest hsend hstart husers hlength
    · next hlength => exact flawless hrequest hsend hstart husers hlength
  · next hscope => exact request?_of_scope htarget hscope

/-- Two users write twice under keys of four characters, and read once. -/
theorem drive_agrees_two_users :
    let u : Uuid := ⟨0xDEADBEEF0123#48, 0xABC#12, 7#62⟩
    let a : SocketAddress := .v6 ⟨[0xFE80, 0, 0, 0, 0, 0, 0, 1], rfl⟩ 0 8080
    let p : LoadPlan := ⟨"http://[fe80::1]:8080//", 2, 1000, 4, 10⟩
    let send := Transport.toDoor MemoryStore.store .byName
    let start : Door MemoryStore := ⟨.new "n" "h:1", .new⟩
    let turns : List Turn := [⟨1, ⟨.write, u⟩⟩, ⟨0, ⟨.read, u⟩⟩, ⟨0, ⟨.write, u⟩⟩]
    let report := (p.drive send start turns).1
    let node := (p.drive send start turns).2
    p.target = "http://" ++ a.text ++ String.ofList (List.replicate 2 '/') ∧
      send.Delivers MemoryStore.store id ∧ (∀ turn ∈ turns, turn.user < p.users.toNat) ∧
      report.writes.ok = 2 ∧ report.reads.ok = 1 ∧
      (node.metrics.requestCount "/key" "POST").1 = 2 ∧ node.store.len ≤ 2 := by
  intro u a p send start turns report node
  have htarget : p.target = "http://" ++ a.text ++ String.ofList (List.replicate 2 '/') := by
    decide +kernel
  have husers : ∀ turn ∈ turns, turn.user < p.users.toNat := by decide
  have hsend := Transport.toDoor_delivers MemoryStore.store .byName
  have h : Flawless turns (p.performAll send start turns).1 report node :=
    drive_agrees p a 2 send id start "n" "h:1" turns htarget hsend rfl husers
  have hwrites : report.writes.ok = 2 := h.writes_ok.trans h.writes_performed
  exact ⟨htarget, hsend, husers, hwrites, h.reads_ok.trans h.reads_performed,
    h.writes_served.symm.trans h.writes_performed, h.keys_le.trans (Nat.le_of_eq hwrites)⟩

end LoadPlan

end FrontDoor
