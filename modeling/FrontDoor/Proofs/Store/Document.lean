import FrontDoor.Proofs.Json.Uniqueness
import FrontDoor.Proofs.Store.Isolation

/-!
# A status document describes its node

A status is a text of one value only, and the value has the identity of the node, its peers and the
number of its keys as members (`documentText_status_iff`). Which keys a node holds is told by the
operations of its run: those whose last write was a set (`isSome_get?_after_iff`).
-/

namespace FrontDoor.MemoryStore

open Json

/-! ## The keys of a run -/

/-- Whether an operation sets or deletes a key. -/
def Operation.Writes (k : String) (op : Operation) : Prop :=
  (∃ value, op = .set k value) ∨ op = .delete k

/-- The keys whose last write in a run is a set. The key may be empty, and so may the value. -/
def heldKeys (ops : List Operation) : Set String :=
  {k | ∃ before value later, ops = before ++ .set k value :: later ∧ ∀ op ∈ later, ¬op.Writes k}

theorem mem_heldKeys_concat {ops : List Operation} {op : Operation} {k : String} :
    k ∈ heldKeys (ops ++ [op]) ↔
      (∃ value, op = .set k value) ∨ (k ∈ heldKeys ops ∧ op ≠ .delete k) := by
  constructor
  · rintro ⟨before, value, later, hops, hlater⟩
    rcases List.eq_nil_or_concat' later with rfl | ⟨later, op', rfl⟩
    · obtain ⟨-, hop⟩ := List.append_inj' hops rfl
      exact .inl ⟨value, List.singleton_inj.mp hop⟩
    · rw [← List.cons_append, ← List.append_assoc] at hops
      obtain ⟨rfl, hop⟩ := List.append_inj' hops rfl
      obtain rfl := List.singleton_inj.mp hop
      refine .inr ⟨⟨before, value, later, rfl, fun o ho => ?_⟩, fun hdelete => ?_⟩
      · exact hlater o (List.mem_append_left _ ho)
      · exact hlater op (List.mem_append_right _ List.mem_cons_self) (.inr hdelete)
  · intro h
    by_cases hset : ∃ value, op = .set k value
    · obtain ⟨value, rfl⟩ := hset
      exact ⟨ops, value, [], rfl, fun _ ho => absurd ho List.not_mem_nil⟩
    · obtain ⟨⟨before, value, later, rfl, hlater⟩, hdelete⟩ := h.resolve_left hset
      refine ⟨before, value, later ++ [op], by rw [List.append_assoc]; rfl, fun o ho => ?_⟩
      rcases List.mem_append.mp ho with ho | ho
      · exact hlater o ho
      · rw [List.mem_singleton.mp ho]
        exact not_or.mpr ⟨hset, hdelete⟩

theorem isSome_get?_perform_iff (s : MemoryStore) (op : Operation) (k : String) :
    ((s.perform op).2.data.get? k).isSome ↔
      (∃ value, op = .set k value) ∨ ((s.data.get? k).isSome ∧ op ≠ .delete k) := by
  cases op with
  | set key value =>
    have hdata : (s.perform (.set key value)).2.data = s.data.insert key value := rfl
    rw [hdata, Dictionary.get?_insert]
    split
    · next hk => simp [hk]
    · next hk => simp [Ne.symm hk]
  | delete key =>
    have hdata : (s.perform (.delete key)).2.data = s.data.erase key := rfl
    rw [hdata, Dictionary.get?_erase]
    split
    · next hk => simp [hk]
    · next hk => simp [Ne.symm hk]
  | join nodeId addr =>
    rw [data_perform rfl]
    simp
  | crashJoin nodeId addr =>
    rw [data_perform rfl]
    simp
  | _ => simp [perform]

/-- A node holds just the keys whose last write was a set. -/
theorem isSome_get?_after_iff (nodeId addr : String) (ops : List Operation) (k : String) :
    (((new nodeId addr).after ops).data.get? k).isSome ↔ k ∈ heldKeys ops := by
  -- From the end, where the last write stands.
  induction ops using List.reverseRecOn with
  | nil =>
    refine ⟨fun h => absurd h (by simp [new, after]), ?_⟩
    rintro ⟨before, value, later, hops, -⟩
    simp at hops
  | append_singleton ops op ih =>
    rw [after_concat, isSome_get?_perform_iff, ih, mem_heldKeys_concat]

theorem len_after (nodeId addr : String) (ops : List Operation) :
    (((new nodeId addr).after ops).len : ℕ∞) = (heldKeys ops).encard := by
  rw [len, Dictionary.size_eq_encard]
  congr 1
  ext k
  exact isSome_get?_after_iff nodeId addr ops k

theorem nodup_peers (s : MemoryStore) : (s.peers.map Prod.fst).Nodup := by
  unfold peers
  split
  · exact List.nodup_nil
  · exact s.members.nodup_names

/-! ## The document -/

/-- What a status says of its node. -/
def description (s : MemoryStore) : Value :=
  .object [("addr", .string s.addr), ("keys", .number s.len), ("leader", .string s.addr),
    ("node_id", .string s.nodeId), ("peers", .object (s.peers.map fun p => (p.1, .string p.2)))]

theorem valueText_status (s : MemoryStore) :
    ValueText (Utf8.encode s.status.toList) s.description := by
  have hstring (t : String) : ValueText (Utf8.encode (quotedText t)) (.string t) :=
    .string (stringText_quoted legible_plain t)
  rw [toList_status, statusText, description]
  refine valueText_objectText legible_plain [
    ("addr", quotedText s.addr, .string s.addr),
    ("keys", (Digits.decimal s.len).toList, .number s.len),
    ("leader", quotedText s.addr, .string s.addr),
    ("node_id", quotedText s.nodeId, .string s.nodeId),
    ("peers", stringObjectText (fun c => [c]) s.peers, .object (s.peers.map _))] ?_
  simp only [List.forall_mem_cons, List.not_mem_nil, false_imp_iff, implies_true, and_true]
  exact ⟨hstring _, valueText_decimal _, hstring _, hstring _,
    valueText_stringObjectText legible_plain _⟩

theorem documentText_status_iff {s : MemoryStore} {v : Value} :
    DocumentText (Utf8.encode s.status.toList) v ↔ v = s.description := by
  have h : DocumentText (Utf8.encode s.status.toList) s.description :=
    padded_of_piece s.valueText_status
  constructor
  · exact fun hv => documentText_unique hv h
  · rintro rfl
    exact h

/-- The peers are told from their object. -/
theorem peers_object_injective {l l' : List (String × String)}
    (h : (l.map fun p => (p.1, Value.string p.2)) = l'.map fun p => (p.1, .string p.2)) :
    l = l' := by
  refine List.map_injective_iff.mpr (fun p q hpq => ?_) h
  simp only [Prod.mk.injEq, Value.string.injEq] at hpq
  exact Prod.ext hpq.1 hpq.2

theorem status_eq_iff {s t : MemoryStore} :
    s.status = t.status ↔
      s.nodeId = t.nodeId ∧ s.addr = t.addr ∧ s.peers = t.peers ∧ s.len = t.len := by
  constructor
  · intro h
    have hdescription : s.description = t.description :=
      documentText_status_iff.mp (h ▸ documentText_status_iff.mpr rfl)
    simp only [description, Value.object.injEq, List.cons.injEq, Prod.mk.injEq, Value.string.injEq,
      Value.number.injEq, Nat.cast_inj, true_and, and_true] at hdescription
    obtain ⟨haddr, hlen, -, hid, hpeers⟩ := hdescription
    exact ⟨hid, haddr, peers_object_injective hpeers, hlen⟩
  · rintro ⟨hid, haddr, hpeers, hlen⟩
    rw [← String.toList_inj, toList_status, toList_status, hid, haddr, hpeers, hlen]

/-- **A status document describes its node without loss.** After every run it is a text of one value
only, an object with five members: the identity is the one that the node has had from the start, the
leader is at the address of the node, the peers are those that the node knows, each under a name of
its own, and the number of keys is that of the keys whose last write was a set. Two runs end in the
same document only with the same identity, the same peers and the same number of keys. -/
theorem status_describes_node (nodeId addr : String) (ops : List Operation) :
    let s := (new nodeId addr).after ops
    (∀ v, DocumentText (Utf8.encode s.status.toList) v ↔
        v = .object [("addr", .string s.addr), ("keys", .number s.len), ("leader", .string s.addr),
          ("node_id", .string s.nodeId),
          ("peers", .object (s.peers.map fun p => (p.1, .string p.2)))]) ∧
      s.nodeId = nodeId ∧ s.addr = addr ∧ (s.peers.map Prod.fst).Nodup ∧
      (s.len : ℕ∞) = (heldKeys ops).encard ∧
      ∀ nodeId' addr' ops',
        let t := (new nodeId' addr').after ops'
        s.status = t.status ↔
          nodeId = nodeId' ∧ addr = addr' ∧ s.peers = t.peers ∧ s.len = t.len := by
  intro s
  obtain ⟨hid, haddr⟩ := (new nodeId addr).after_identity ops
  refine ⟨fun v => documentText_status_iff, hid, haddr, s.nodup_peers, len_after nodeId addr ops,
    fun nodeId' addr' ops' => ?_⟩
  obtain ⟨hid', haddr'⟩ := (new nodeId' addr').after_identity ops'
  intro t
  rw [status_eq_iff, hid, haddr, hid', haddr']
  rfl

end FrontDoor.MemoryStore
