import FrontDoor.Proofs.Dictionary
import FrontDoor.Proofs.Store.Run

/-!
# Agreement on the members

While the membership is sound, a node knows exactly the pairs it has bound: its own, and those whose
join it accepted. A join looks at the members in the order of their ids and decides at the first one
that shares the id or the address. That this is the same as looking at all of them rests on the
binding being one to one, which every accepted join preserves.
-/

namespace FrontDoor.MemoryStore

/-- The pairs bound in a run: the node's own, and those whose join was accepted. -/
def bound (nodeId addr : String) (ops : List Operation) : Set (String × String) :=
  {p | p = (nodeId, addr) ∨
    (Operation.join p.1 p.2, Answer.joined (.ok ())) ∈ (new nodeId addr).history ops}

/-- Whether an id and an address contradict no pair: they are held by the same pairs. -/
def Fits (A : Set (String × String)) (id a : String) : Prop :=
  ∀ p ∈ A, id = p.1 ↔ a = p.2

/-- The members are the bound pairs but the node's own, and the pairs bind one to one. -/
structure Agrees (s : MemoryStore) (A : Set (String × String)) : Prop where
  self : (s.nodeId, s.addr) ∈ A
  members : ∀ p, p ∈ s.members.toList ↔ p ∈ A ∧ p ≠ (s.nodeId, s.addr)
  oneToOne : ∀ p ∈ A, Fits A p.1 p.2

theorem agrees_new (nodeId addr : String) : Agrees (new nodeId addr) {(nodeId, addr)} where
  self := rfl
  members := by
    intro p
    refine ⟨fun h => absurd h List.not_mem_nil, ?_⟩
    rintro ⟨rfl, h⟩
    exact absurd rfl h
  oneToOne := by
    rintro p rfl q rfl
    exact ⟨fun _ => rfl, fun _ => rfl⟩

variable {s : MemoryStore} {A : Set (String × String)}

/-! ## Joining -/

/-- The first member with the id or the address decides for all of them: it is the pair itself, or
it contradicts the pair. -/
theorem admission_cases (h : Agrees s A) (id a : String) :
    (s.admission id a = .ok true ∧ ∀ p ∈ A, id ≠ p.1 ∧ a ≠ p.2) ∨
      (s.admission id a = .ok false ∧ (id, a) ∈ A) ∨
      ((∃ detail, s.admission id a = .error (.membership detail)) ∧ ¬ Fits A id a) := by
  unfold admission
  by_cases hself : id = s.nodeId ∨ a = s.addr
  · rw [if_pos hself]
    by_cases hboth : id = s.nodeId ∧ a = s.addr
    · rw [if_pos hboth, hboth.1, hboth.2]
      exact .inr (.inl ⟨rfl, h.self⟩)
    · rw [if_neg hboth]
      refine .inr (.inr ⟨⟨_, rfl⟩, fun hfits => ?_⟩)
      have hiff := hfits _ h.self
      tauto
  · rw [if_neg hself]
    cases hfind : s.members.toList.find? fun m => m.1 = id || m.2 = a with
    | none =>
      refine .inl ⟨rfl, fun p hp => ?_⟩
      by_cases hlocal : p = (s.nodeId, s.addr)
      · subst hlocal
        exact not_or.mp hself
      · have hfree := List.find?_eq_none.mp hfind p ((h.members p).mpr ⟨hp, hlocal⟩)
        simp only [Bool.or_eq_true, decide_eq_true_eq, not_or] at hfree
        exact ⟨Ne.symm hfree.1, Ne.symm hfree.2⟩
    | some m =>
      have hm : m ∈ A := ((h.members m).mp (List.mem_of_find?_eq_some hfind)).1
      have hshare := List.find?_some hfind
      simp only [Bool.or_eq_true, decide_eq_true_eq] at hshare
      dsimp only
      -- A member that shares just one of the two contradicts the pair, whatever comes behind it.
      by_cases hboth : m.1 = id ∧ m.2 = a
      · rw [if_pos hboth]
        refine .inr (.inl ⟨rfl, ?_⟩)
        rw [← hboth.1, ← hboth.2]
        exact hm
      · rw [if_neg hboth]
        refine .inr (.inr ⟨⟨_, rfl⟩, fun hfits => ?_⟩)
        have hiff := hfits m hm
        rw [eq_comm, @eq_comm _ a] at hiff
        tauto

/-- Binding a pair with a free id and a free address. -/
theorem Agrees.bind (h : Agrees s A) {id a : String} (hfree : ∀ p ∈ A, id ≠ p.1 ∧ a ≠ p.2) :
    Agrees { s with members := s.members.insert id a } (insert (id, a) A) where
  self := Set.mem_insert_of_mem _ h.self
  members := by
    rintro ⟨k, v⟩
    have hold := h.members (k, v)
    rw [Dictionary.mem_toList_iff] at hold ⊢
    rw [Dictionary.get?_insert, Set.mem_insert_iff, Prod.mk.injEq]
    have hself := (hfree _ h.self).1
    by_cases hk : k = id
    · subst hk
      have hnot : (k, v) ∉ A := fun hp => (hfree _ hp).1 rfl
      rw [if_pos rfl, Option.some.injEq]
      constructor
      · rintro rfl
        exact ⟨.inl ⟨rfl, rfl⟩, fun heq => hself (Prod.mk.inj heq).1⟩
      · rintro ⟨⟨-, rfl⟩ | hp, -⟩
        · rfl
        · exact absurd hp hnot
    · rw [if_neg hk, hold]
      exact and_congr_left fun _ => ⟨.inr, fun hp => hp.resolve_left fun heq => hk heq.1⟩
  oneToOne := by
    rintro p (rfl | hp) q (rfl | hq)
    · exact ⟨fun _ => rfl, fun _ => rfl⟩
    · exact ⟨fun heq => absurd heq (hfree q hq).1, fun heq => absurd heq (hfree q hq).2⟩
    · exact ⟨fun heq => absurd heq.symm (hfree p hp).1, fun heq => absurd heq.symm (hfree p hp).2⟩
    · exact h.oneToOne p hp q hq

/-- A pair that fits is bound; any other is refused and changes nothing. -/
theorem join_cases (h : Agrees s A) (hsound : s.poisoned = false) (id a : String) :
    (Fits A id a ∧ (s.join id a).1 = .ok () ∧ Agrees (s.join id a).2 (insert (id, a) A)) ∨
      (¬ Fits A id a ∧ ∃ detail, s.join id a = (.error (.membership detail), s)) := by
  unfold join
  rw [if_neg (by rw [hsound]; exact Bool.false_ne_true)]
  rcases admission_cases h id a with ⟨hnew, hfree⟩ | ⟨hknown, hmem⟩ | ⟨⟨detail, hrefused⟩, hfits⟩
  · rw [hnew]
    refine .inl ⟨fun p hp => ?_, rfl, h.bind hfree⟩
    exact ⟨fun heq => absurd heq (hfree p hp).1, fun heq => absurd heq (hfree p hp).2⟩
  · -- A known pair fits only because the pairs bind one to one.
    rw [hknown]
    refine .inl ⟨h.oneToOne _ hmem, rfl, ?_⟩
    rw [Set.insert_eq_of_mem hmem]
    exact h
  · rw [hrefused]
    exact .inr ⟨hfits, detail, rfl⟩

theorem join_of_mem (h : Agrees s A) (hsound : s.poisoned = false) {p : String × String}
    (hp : p ∈ A) : s.join p.1 p.2 = (.ok (), s) := by
  unfold join
  rw [if_neg (by rw [hsound]; exact Bool.false_ne_true)]
  rcases admission_cases h p.1 p.2 with ⟨-, hfree⟩ | ⟨hknown, -⟩ | ⟨-, hfits⟩
  · exact absurd rfl (hfree p hp).1
  · rw [hknown]
    rfl
  · exact absurd (h.oneToOne p hp) hfits

/-! ## Runs -/

/-- One more operation binds the pair of an accepted join, and nothing else. -/
theorem mem_bound_concat {nodeId addr : String} {ops : List Operation} {op : Operation}
    {p : String × String} :
    p ∈ bound nodeId addr (ops ++ [op]) ↔ p ∈ bound nodeId addr ops ∨
      (op = .join p.1 p.2 ∧ (((new nodeId addr).after ops).perform op).1 = .joined (.ok ())) := by
  unfold bound
  rw [Set.mem_ofPred_eq, Set.mem_ofPred_eq, history_append, List.mem_append, or_assoc]
  simp only [history, List.mem_singleton, Prod.mk.injEq, eq_comm]

theorem bound_subset_append (nodeId addr : String) (ops more : List Operation) :
    bound nodeId addr ops ⊆ bound nodeId addr (ops ++ more) := by
  rintro p (h | h)
  · exact .inl h
  · refine .inr ?_
    rw [history_append]
    exact List.mem_append_left _ h

/-- Only an accepted join binds anything. -/
theorem bound_concat_of_not_accepted {nodeId addr : String} {ops : List Operation} {op : Operation}
    (h : ∀ p : String × String, op = .join p.1 p.2 →
      (((new nodeId addr).after ops).perform op).1 ≠ .joined (.ok ())) :
    bound nodeId addr (ops ++ [op]) = bound nodeId addr ops := by
  ext p
  rw [mem_bound_concat]
  exact or_iff_left fun haccepted => h p haccepted.1 haccepted.2

/-- A sound membership agrees with the pairs that its run has bound. -/
theorem agrees_after (nodeId addr : String) (ops : List Operation)
    (hsound : ((new nodeId addr).after ops).poisoned = false) :
    Agrees ((new nodeId addr).after ops) (bound nodeId addr ops) := by
  -- From the end, where a run grows and one more pair may be bound.
  induction ops using List.reverseRecOn with
  | nil =>
    have hbound : bound nodeId addr [] = {(nodeId, addr)} := by
      ext p
      exact or_iff_left List.not_mem_nil
    rw [hbound]
    exact agrees_new nodeId addr
  | append_singleton ops op ih =>
    have hbefore := sound_of_append _ hsound
    have h := ih hbefore
    by_cases hjoin : ∃ id a, op = .join id a
    · obtain ⟨id, a, rfl⟩ := hjoin
      rcases join_cases h hbefore id a with ⟨-, hok, hagrees⟩ | ⟨-, detail, hrefused⟩
      · have hbound : bound nodeId addr (ops ++ [.join id a])
            = insert (id, a) (bound nodeId addr ops) := by
          ext ⟨i, b⟩
          rw [mem_bound_concat, Set.mem_insert_iff, or_comm]
          simp [perform, hok, eq_comm]
        rw [hbound, after_concat]
        exact hagrees
      · rw [bound_concat_of_not_accepted, after_concat]
        · simp only [perform, hrefused]
          exact h
        · simp [perform, hrefused]
    · have hnot : ∀ id a, op ≠ .join id a := fun id a hop => hjoin ⟨id, a, hop⟩
      rw [bound_concat_of_not_accepted fun p hop => absurd hop (hnot p.1 p.2)]
      rw [after_concat] at hsound ⊢
      obtain ⟨hid, haddr⟩ := perform_identity _ op
      constructor
      · rw [hid, haddr]
        exact h.self
      · rw [hid, haddr, members_perform _ hnot hsound]
        exact h.members
      · exact h.oneToOne

/-- As long as the membership is sound, a join is accepted exactly when it contradicts none of the
pairs bound so far, and is refused without effect otherwise. The peers are the bound pairs other
than the node's own, in the order of their ids. The pairs bind one to one, and whatever follows they
stay bound and can join again. -/
theorem membership_after_run (nodeId addr : String) (ops : List Operation)
    (hsound : ((new nodeId addr).after ops).poisoned = false) :
    (∀ id a, (((new nodeId addr).after ops).join id a).1 = .ok () ↔
        ∀ p ∈ bound nodeId addr ops, id = p.1 ↔ a = p.2) ∧
      (∀ id a, (((new nodeId addr).after ops).join id a).1 ≠ .ok () →
        ∃ detail, ((new nodeId addr).after ops).join id a
          = (.error (.membership detail), (new nodeId addr).after ops)) ∧
      (∀ p, p ∈ ((new nodeId addr).after ops).peers ↔
        p ∈ bound nodeId addr ops ∧ p ≠ (nodeId, addr)) ∧
      ((new nodeId addr).after ops).peers.Pairwise (fun p q => p.1 < q.1) ∧
      (∀ p ∈ bound nodeId addr ops, ∀ q ∈ bound nodeId addr ops, p.1 = q.1 ↔ p.2 = q.2) ∧
      ∀ more, ((new nodeId addr).after (ops ++ more)).poisoned = false →
        ∀ p ∈ bound nodeId addr ops, p ∈ bound nodeId addr (ops ++ more) ∧
          ((new nodeId addr).after (ops ++ more)).join p.1 p.2
            = (.ok (), (new nodeId addr).after (ops ++ more)) := by
  have h := agrees_after nodeId addr ops hsound
  have hpeers : ((new nodeId addr).after ops).peers
      = ((new nodeId addr).after ops).members.toList := by
    unfold peers
    rw [if_neg (by rw [hsound]; exact Bool.false_ne_true)]
  refine ⟨fun id a => ?_, fun id a hnot => ?_, ?_, ?_, h.oneToOne, fun more hmore p hp => ?_⟩
  · rcases join_cases h hsound id a with ⟨hfits, hok, -⟩ | ⟨hfits, detail, hrefused⟩
    · exact ⟨fun _ => hfits, fun _ => hok⟩
    · refine ⟨fun hok => ?_, fun hall => absurd hall hfits⟩
      rw [hrefused] at hok
      cases hok
  · rcases join_cases h hsound id a with ⟨-, hok, -⟩ | ⟨-, hrefused⟩
    · exact absurd hok hnot
    · exact hrefused
  · obtain ⟨hid, haddr⟩ := after_identity (new nodeId addr) ops
    intro p
    rw [hpeers, h.members, hid, haddr]
    rfl
  · rw [hpeers]
    exact ((new nodeId addr).after ops).members.sorted
  · have hp' := bound_subset_append nodeId addr ops more hp
    exact ⟨hp', join_of_mem (agrees_after nodeId addr (ops ++ more) hmore) hmore hp'⟩

/-- A crashing join that is refused leaves the membership sound, and a second id for the address of
a member is refused. -/
theorem membership_after_refused_crash :
    ((new "a" "h:1").after [.join "b" "h:2", .set "k" "v", .crashJoin "b" "h:3"]).poisoned = false ∧
      ∃ detail, ((new "a" "h:1").after
        [.join "b" "h:2", .set "k" "v", .crashJoin "b" "h:3"]).join "c" "h:2"
          = (.error (.membership detail),
            (new "a" "h:1").after [.join "b" "h:2", .set "k" "v", .crashJoin "b" "h:3"]) :=
  have hsound : ((new "a" "h:1").after
      [.join "b" "h:2", .set "k" "v", .crashJoin "b" "h:3"]).poisoned = false := by decide +kernel
  ⟨hsound, (membership_after_run "a" "h:1" _ hsound).2.1 "c" "h:2" (by decide +kernel)⟩

end FrontDoor.MemoryStore
