import FrontDoor.Store.Memory

/-!
# Runs of a node

A run is a list of operations, performed one after the other; its history has their answers as well.
The identity of a node never changes, and a poisoned membership stays poisoned.
-/

namespace FrontDoor.MemoryStore

/-- The node after some operations. -/
def after (s : MemoryStore) (ops : List Operation) : MemoryStore :=
  ops.foldl (fun s op => (s.perform op).2) s

/-- The operations of a run with their answers, in order. -/
def history : MemoryStore → List Operation → List (Operation × Answer)
  | _, [] => []
  | s, op :: ops => (op, (s.perform op).1) :: history (s.perform op).2 ops

theorem after_append (s : MemoryStore) (ops ops' : List Operation) :
    s.after (ops ++ ops') = (s.after ops).after ops' := List.foldl_append

theorem after_concat (s : MemoryStore) (ops : List Operation) (op : Operation) :
    s.after (ops ++ [op]) = ((s.after ops).perform op).2 := after_append s ops [op]

theorem history_append (s : MemoryStore) (ops ops' : List Operation) :
    s.history (ops ++ ops') = s.history ops ++ (s.after ops).history ops' := by
  induction ops generalizing s with
  | nil => rfl
  | cons op ops ih =>
    rw [List.cons_append, history, history, ih, List.cons_append]
    rfl

/-! ## One operation -/

variable (s : MemoryStore)

theorem join_state_of_error {nodeId addr : String} {e : StoreError}
    (h : (s.join nodeId addr).1 = .error e) : (s.join nodeId addr).2 = s := by
  unfold join at h ⊢
  split
  · rfl
  · next hp =>
    rw [if_neg hp] at h
    split
    · rfl
    · next hadmission => rw [hadmission] at h; simp at h

theorem exists_join_state (nodeId addr : String) :
    ∃ members, (s.join nodeId addr).2 = { s with members := members } := by
  unfold join
  split
  · exact ⟨s.members, rfl⟩
  · split
    · exact ⟨s.members, rfl⟩
    · dsimp only
      split
      · exact ⟨_, rfl⟩
      · exact ⟨s.members, rfl⟩

/-- A join that crashes was refused and changed nothing, or has poisoned the membership. -/
theorem crashJoin_cases (nodeId addr : String) :
    (s.crashJoin nodeId addr).2 = s ∨
      ∃ members, (s.crashJoin nodeId addr).2 = { s with members := members, poisoned := true } := by
  have hstate := s.exists_join_state nodeId addr
  have herror := @join_state_of_error s nodeId addr
  unfold crashJoin
  generalize s.join nodeId addr = r at hstate herror ⊢
  obtain ⟨e | _, s'⟩ := r
  · exact .inl (herror rfl)
  · obtain ⟨members, rfl⟩ := hstate
    exact .inr ⟨members, rfl⟩

theorem perform_identity (op : Operation) :
    (s.perform op).2.nodeId = s.nodeId ∧ (s.perform op).2.addr = s.addr := by
  cases op with
  | join nodeId addr =>
    obtain ⟨members, h⟩ := s.exists_join_state nodeId addr
    simp only [perform, h, and_self]
  | crashJoin nodeId addr =>
    rcases s.crashJoin_cases nodeId addr with h | ⟨members, h⟩ <;> simp only [perform, h, and_self]
  | _ => exact ⟨rfl, rfl⟩

theorem poisoned_perform {op : Operation} (h : s.poisoned = true) :
    (s.perform op).2.poisoned = true := by
  cases op with
  | join nodeId addr =>
    obtain ⟨members, hs⟩ := s.exists_join_state nodeId addr
    simp only [perform, hs, h]
  | crashJoin nodeId addr =>
    rcases s.crashJoin_cases nodeId addr with hs | ⟨members, hs⟩ <;> simp only [perform, hs, h]
  | _ => exact h

/-- While the membership is sound, only a join changes the members. -/
theorem members_perform {op : Operation} (hjoin : ∀ nodeId addr, op ≠ .join nodeId addr)
    (h : (s.perform op).2.poisoned = false) : (s.perform op).2.members = s.members := by
  cases op with
  | join nodeId addr => exact absurd rfl (hjoin nodeId addr)
  | crashJoin nodeId addr =>
    rcases s.crashJoin_cases nodeId addr with hs | ⟨members, hs⟩
    · simp only [perform, hs]
    · simp [perform, hs] at h
  | _ => rfl

/-! ## Runs -/

theorem after_identity (ops : List Operation) :
    (s.after ops).nodeId = s.nodeId ∧ (s.after ops).addr = s.addr := by
  induction ops generalizing s with
  | nil => exact ⟨rfl, rfl⟩
  | cons op ops ih =>
    obtain ⟨h₁, h₂⟩ := s.perform_identity op
    obtain ⟨h₃, h₄⟩ := ih (s.perform op).2
    exact ⟨h₃.trans h₁, h₄.trans h₂⟩

theorem poisoned_after {ops : List Operation} (h : s.poisoned = true) :
    (s.after ops).poisoned = true := by
  induction ops generalizing s with
  | nil => exact h
  | cons op ops ih => exact ih _ (s.poisoned_perform h)

/-- A run that leaves the membership sound had it sound all along. -/
theorem sound_of_append {ops ops' : List Operation} (h : (s.after (ops ++ ops')).poisoned = false) :
    (s.after ops).poisoned = false := by
  rw [after_append] at h
  cases hp : (s.after ops).poisoned with
  | false => rfl
  | true => rw [poisoned_after _ hp] at h; exact absurd h (by decide)

end FrontDoor.MemoryStore
