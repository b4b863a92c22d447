import FrontDoor.Proofs.Store.Run
import FrontDoor.Proofs.Store.Status

/-!
# Keys and members apart

What a node answers about keys depends on the operations on keys alone, and what it answers about
its members on the joins alone. Both follow from one fact about runs: if the operations that are
struck from a run do not touch what a relation between nodes looks at, and those that are kept
preserve it and answer alike, then the answers are those of the shorter run (`history_of_blind`).

A join that crashes where it would have been accepted poisons the membership for good
(`poisoned_after_iff`); the keys do not notice.
-/

namespace FrontDoor.MemoryStore

/-- The operations on keys. -/
def Operation.onKeys : Operation → Bool
  | .get _ | .set _ _ | .delete _ => true
  | _ => false

/-- The operations on the membership, those that crash included. -/
def Operation.onMembers : Operation → Bool
  | .join _ _ | .crashJoin _ _ => true
  | _ => false

/-! ## Runs with operations struck out -/

/-- What is seen is blind to what is struck: a relation between nodes survives a struck operation on
one side and a kept one on both, and the operations that are seen are none of the struck ones and
are answered alike by related nodes. -/
structure Blind (R : MemoryStore → MemoryStore → Prop) (struck seen : Operation → Bool) :
    Prop where
  struck_state : ∀ {s t op}, R s t → struck op = true → R (s.perform op).2 t
  kept_state : ∀ {s t op}, R s t → struck op = false → R (s.perform op).2 (t.perform op).2
  struck_unseen : ∀ {op}, struck op = true → seen op = false
  seen_answer : ∀ {s t op}, R s t → seen op = true → (s.perform op).1 = (t.perform op).1

section Blind

variable {R : MemoryStore → MemoryStore → Prop} {struck seen : Operation → Bool}

theorem after_of_blind (h : Blind R struck seen) {s t : MemoryStore} (hR : R s t)
    (ops : List Operation) : R (s.after ops) (t.after (ops.filter (!struck ·))) := by
  induction ops generalizing s t with
  | nil => exact hR
  | cons op ops ih =>
    cases hop : struck op with
    | true =>
      rw [List.filter_cons_of_neg (by simp [hop])]
      exact ih (h.struck_state hR hop)
    | false =>
      rw [List.filter_cons_of_pos (by simp [hop])]
      exact ih (h.kept_state hR hop)

/-- The seen operations are answered as in the run without the struck ones. -/
theorem history_of_blind (h : Blind R struck seen) {s t : MemoryStore} (hR : R s t)
    (ops : List Operation) :
    (s.history ops).filter (seen ·.1) =
      (t.history (ops.filter (!struck ·))).filter (seen ·.1) := by
  induction ops generalizing s t with
  | nil => rfl
  | cons op ops ih =>
    cases hop : struck op with
    | true =>
      have hunseen := h.struck_unseen hop
      rw [List.filter_cons_of_neg (by simp [hop]), history,
        List.filter_cons_of_neg (by simp [hunseen])]
      exact ih (h.struck_state hR hop)
    | false =>
      have hrest := ih (h.kept_state hR hop)
      rw [List.filter_cons_of_pos (by simp [hop]), history, history]
      cases hseen : seen op with
      | true =>
        rw [List.filter_cons_of_pos (by simp [hseen]), List.filter_cons_of_pos (by simp [hseen]),
          h.seen_answer hR hseen, hrest]
      | false =>
        rw [List.filter_cons_of_neg (by simp [hseen]), List.filter_cons_of_neg (by simp [hseen]),
          hrest]

end Blind

/-! ## Keys -/

/-- Joins leave the data alone, whether they crash or not. -/
theorem data_perform {op : Operation} (h : op.onMembers = true) (s : MemoryStore) :
    (s.perform op).2.data = s.data := by
  cases op with
  | join nodeId addr =>
    obtain ⟨members, hs⟩ := s.exists_join_state nodeId addr
    simp only [perform, hs]
  | crashJoin nodeId addr =>
    rcases s.crashJoin_cases nodeId addr with hs | ⟨members, hs⟩ <;> simp only [perform, hs]
  | _ => cases h

/-- Nodes with the same data cannot be told apart by keys. -/
theorem blind_keys : Blind (fun s t => s.data = t.data) Operation.onMembers Operation.onKeys where
  struck_state {s t op} hR hop := (data_perform hop s).trans hR
  kept_state {s t op} hR hop := by
    cases op with
    | set key value => exact congrArg (·.insert key value) hR
    | delete key => exact congrArg (·.erase key) hR
    | join | crashJoin => cases hop
    | _ => exact hR
  struck_unseen {op} hop := by
    cases op with
    | join | crashJoin => rfl
    | _ => cases hop
  seen_answer {s t op} hR hop := by
    cases op with
    | get key => simp only [perform, get, hR]
    | set | delete => rfl
    | _ => cases hop

/-! ## Members -/

/-- The same node with other data. -/
def withData (s : MemoryStore) (data : Dictionary String) : MemoryStore := { s with data := data }

theorem join_withData (s : MemoryStore) (data : Dictionary String) (nodeId addr : String) :
    (s.withData data).join nodeId addr =
      ((s.join nodeId addr).1, (s.join nodeId addr).2.withData data) := by
  have hadmission : (s.withData data).admission nodeId addr = s.admission nodeId addr := rfl
  unfold join
  rw [hadmission]
  by_cases hp : s.poisoned = true
  · rw [if_pos hp, if_pos (show (s.withData data).poisoned = true from hp)]
  · rw [if_neg hp, if_neg (show ¬(s.withData data).poisoned = true from hp)]
    rcases s.admission nodeId addr with e | _ | _ <;> rfl

theorem crashJoin_withData (s : MemoryStore) (data : Dictionary String) (nodeId addr : String) :
    (s.withData data).crashJoin nodeId addr =
      ((s.crashJoin nodeId addr).1, (s.crashJoin nodeId addr).2.withData data) := by
  unfold crashJoin
  rw [join_withData]
  rcases s.join nodeId addr with ⟨_ | _, s'⟩ <;> rfl

/-- Nodes that differ in their data only cannot be told apart by joins. -/
theorem blind_members :
    Blind (fun s t => ∃ data, t = s.withData data) Operation.onKeys Operation.onMembers where
  struck_state {s t op} := by
    rintro ⟨data, rfl⟩ hop
    refine ⟨data, ?_⟩
    cases op with
    | get | set | delete => rfl
    | _ => cases hop
  kept_state {s t op} := by
    rintro ⟨data, rfl⟩ hop
    refine ⟨data, ?_⟩
    cases op with
    | get | set | delete => cases hop
    | join nodeId addr => simp only [perform, join_withData]
    | crashJoin nodeId addr => simp only [perform, crashJoin_withData]
    | _ => rfl
  struck_unseen {op} hop := by
    cases op with
    | get | set | delete => rfl
    | _ => cases hop
  seen_answer {s t op} := by
    rintro ⟨data, rfl⟩ hop
    cases op with
    | join nodeId addr => simp only [perform, join_withData]
    | crashJoin nodeId addr => simp only [perform, crashJoin_withData]
    | _ => cases hop

/-! ## Crashes -/

theorem join_of_poisoned {s : MemoryStore} (h : s.poisoned = true) (nodeId addr : String) :
    s.join nodeId addr = (.error poisonedError, s) := by
  rw [join, if_pos h]

/-- A sound membership refuses a node only for the sake of another. -/
theorem membership_of_admission_error {s : MemoryStore} {nodeId addr : String} {e : StoreError}
    (h : s.admission nodeId addr = .error e) : ∃ detail, e = .membership detail := by
  unfold admission at h
  split at h
  · split at h
    · cases h
    · exact ⟨_, (Except.error.inj h).symm⟩
  · split at h
    · cases h
    · split at h
      · cases h
      · exact ⟨_, (Except.error.inj h).symm⟩

theorem join_of_sound {s : MemoryStore} (h : s.poisoned = false) (nodeId addr detail : String) :
    (s.join nodeId addr).1 ≠ .error (.unavailable detail) := by
  unfold join
  rw [if_neg (by rw [h]; exact Bool.false_ne_true)]
  cases hadmission : s.admission nodeId addr with
  | ok _ => simp
  | error e =>
    obtain ⟨reason, rfl⟩ := membership_of_admission_error hadmission
    simp

theorem crashJoin_of_ok {s : MemoryStore} {nodeId addr : String}
    (h : (s.join nodeId addr).1 = .ok ()) :
    s.crashJoin nodeId addr = (.crashed, { (s.join nodeId addr).2 with poisoned := true }) := by
  unfold crashJoin
  rcases hjoin : s.join nodeId addr with ⟨_ | _, s'⟩
  · rw [hjoin] at h
    cases h
  · rfl

theorem crashJoin_of_error {s : MemoryStore} {nodeId addr : String} {e : StoreError}
    (h : (s.join nodeId addr).1 = .error e) : s.crashJoin nodeId addr = (.refused e, s) := by
  have hstate := s.join_state_of_error h
  unfold crashJoin
  rcases hjoin : s.join nodeId addr with ⟨_ | _, s'⟩
  · rw [hjoin] at h hstate
    cases h
    rw [← hstate]
  · rw [hjoin] at h
    cases h

/-- Nothing poisons a membership but a crash in place of an acceptance. -/
theorem poisoned_perform_iff {s : MemoryStore} {op : Operation} :
    (s.perform op).2.poisoned = true ↔ s.poisoned = true ∨
      ∃ nodeId addr, op = .crashJoin nodeId addr ∧ (s.join nodeId addr).1 = .ok () := by
  cases op with
  | join nodeId addr =>
    obtain ⟨members, hs⟩ := s.exists_join_state nodeId addr
    simp [perform, hs]
  | crashJoin nodeId addr =>
    cases hjoin : (s.join nodeId addr).1 with
    | ok _ =>
      have hcrash : ∃ id a, Operation.crashJoin nodeId addr = .crashJoin id a ∧
          (s.join id a).1 = .ok () := ⟨nodeId, addr, rfl, hjoin⟩
      simp only [perform, crashJoin_of_ok hjoin, hcrash, or_true]
    | error e =>
      have hnone : ¬∃ id a, Operation.crashJoin nodeId addr = .crashJoin id a ∧
          (s.join id a).1 = .ok () := by
        rintro ⟨_, _, heq, hok⟩
        cases heq
        rw [hjoin] at hok
        cases hok
      simp only [perform, crashJoin_of_error hjoin, hnone, or_false]
  | _ => simp [perform, set, delete]

/-- Whether a join of a run crashes that would have been accepted: that of a new node, of a member,
or of the node itself. -/
def Crashes (s : MemoryStore) (ops : List Operation) : Prop :=
  ∃ before nodeId addr later, ops = before ++ .crashJoin nodeId addr :: later ∧
    ((s.after before).join nodeId addr).1 = .ok ()

theorem crashes_cons_iff {s : MemoryStore} {op : Operation} {ops : List Operation} :
    Crashes s (op :: ops) ↔
      (∃ nodeId addr, op = .crashJoin nodeId addr ∧ (s.join nodeId addr).1 = .ok ()) ∨
        Crashes (s.perform op).2 ops := by
  constructor
  · rintro ⟨before, nodeId, addr, later, hops, hok⟩
    cases before with
    | nil => exact .inl ⟨nodeId, addr, (List.cons.inj hops).1, hok⟩
    | cons op' before =>
      rw [List.cons_append, List.cons.injEq] at hops
      obtain ⟨rfl, hops⟩ := hops
      exact .inr ⟨before, nodeId, addr, later, hops, hok⟩
  · rintro (⟨nodeId, addr, rfl, hok⟩ | ⟨before, nodeId, addr, later, rfl, hok⟩)
    · exact ⟨[], nodeId, addr, ops, rfl, hok⟩
    · exact ⟨op :: before, nodeId, addr, later, rfl, hok⟩

theorem poisoned_after_iff {s : MemoryStore} {ops : List Operation} :
    (s.after ops).poisoned = true ↔ s.poisoned = true ∨ Crashes s ops := by
  induction ops generalizing s with
  | nil => simp [after, Crashes]
  | cons op ops ih =>
    rw [crashes_cons_iff, ← or_assoc, ← poisoned_perform_iff]
    exact ih

/-! ## Isolation -/

/-- **Keys and members are isolated, also across a crash.** In every run the operations on keys are
answered as in the run without any join, and the joins as in the run without any operation on keys;
so are the number of keys and the peers, after every operation. From the first join on that crashes
where it would have been accepted, every join is turned away as unavailable and crashes no more, no
peer is seen, and the status shows none but still the number of keys; before that, no join is turned
away so. A crashing join that is refused changes nothing. -/
theorem keys_and_members_apart (nodeId addr : String) (ops : List Operation) :
    let start := new nodeId addr
    let node := start.after ops
    let keysOnly := ops.filter (!·.onMembers)
    let membersOnly := ops.filter (!·.onKeys)
    ((start.history ops).filter (·.1.onKeys) = (start.history keysOnly).filter (·.1.onKeys) ∧
        node.len = (start.after keysOnly).len) ∧
      ((start.history ops).filter (·.1.onMembers) =
          (start.history membersOnly).filter (·.1.onMembers) ∧
        node.peers = (start.after membersOnly).peers) ∧
      (Crashes start ops →
        (∀ id a, node.join id a = (.error (.unavailable
            "lock poisoned: poisoned lock: another task failed inside"), node)) ∧
          node.peers = [] ∧
          node.status.toList = statusText nodeId addr [] (start.after keysOnly).len) ∧
      (¬Crashes start ops → ∀ id a detail, (node.join id a).1 ≠ .error (.unavailable detail)) ∧
      ∀ id a e, (node.join id a).1 = .error e → node.crashJoin id a = (.refused e, node) := by
  intro start node keysOnly membersOnly
  have hlen : node.len = (start.after keysOnly).len :=
    congrArg Dictionary.size (after_of_blind blind_keys rfl ops)
  have hself : ∃ data, start = start.withData data := ⟨start.data, rfl⟩
  have hpoisoned : node.poisoned = true ↔ Crashes start ops :=
    poisoned_after_iff.trans (or_iff_right Bool.false_ne_true)
  refine ⟨⟨history_of_blind blind_keys rfl ops, hlen⟩,
    ⟨history_of_blind blind_members hself ops, ?_⟩, fun hcrash => ?_, fun hcrash => ?_,
    fun _ _ _ => crashJoin_of_error⟩
  · obtain ⟨data, hdata⟩ := after_of_blind blind_members hself ops
    exact (congrArg peers hdata).symm
  · have hnode := hpoisoned.mpr hcrash
    have hpeers : node.peers = [] := if_pos hnode
    obtain ⟨hid, haddr⟩ := start.after_identity ops
    refine ⟨join_of_poisoned hnode, hpeers, ?_⟩
    rw [toList_status, hpeers, hlen, hid, haddr]
    rfl
  · exact join_of_sound (Bool.eq_false_iff.mpr (mt hpoisoned.mp hcrash))

/-- The crash of a second join of a member is the one that poisons; a crashing join that is refused
does not, and keys are set and deleted before it and after. -/
theorem keys_outlive_a_crash :
    let start := new "n" "h:1"
    let calm := [.set "a" "1", .join "m" "h:2", .crashJoin "x" "h:2"]
    let ops := calm ++ [.crashJoin "m" "h:2", .delete "a", .set "b" "2", .set "c" ""]
    let refusal := conflict "x" "h:2" "member" "m" "h:2"
    Crashes start ops ∧ (start.after ops).peers = [] ∧
      (start.after ops).status.toList = statusText "n" "h:1" [] 2 ∧
      ¬Crashes start calm ∧
      (∀ detail, ((start.after calm).join "y" "h:3").1 ≠ .error (.unavailable detail)) ∧
      ((start.after calm).join "x" "h:2").1 = .error refusal ∧
      (start.after calm).crashJoin "x" "h:2" = (.refused refusal, start.after calm) := by
  intro start calm ops refusal
  have hcrash : Crashes start ops :=
    (poisoned_after_iff.mp (by decide +kernel)).resolve_left Bool.false_ne_true
  have hcalm : ¬Crashes start calm := fun h =>
    absurd (poisoned_after_iff.mpr (.inr h)) (by decide +kernel)
  have hrefused : ((start.after calm).join "x" "h:2").1 = .error refusal := by rfl
  obtain ⟨-, -, hafter, -, -⟩ := keys_and_members_apart "n" "h:1" ops
  obtain ⟨-, -, -, hbefore, hrefusal⟩ := keys_and_members_apart "n" "h:1" calm
  exact ⟨hcrash, (hafter hcrash).2.1, (hafter hcrash).2.2, hcalm, hbefore hcalm "y" "h:3", hrefused,
    hrefusal "x" "h:2" refusal hrefused⟩

end FrontDoor.MemoryStore
