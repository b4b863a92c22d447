import FrontDoor.Dictionary
import Mathlib.Data.Set.Card

/-!
# Entries and look-ups

A dictionary lists exactly the pairs that looking up finds (`mem_toList_iff`), and its size is the
number of names with a value (`size_eq_encard`). The dictionary of a list gives each name the value
of its last entry (`get?_ofList_eq_some_iff`). Putting in the entries of a list with distinct names
overrides the names of the list and no others, in whatever order the list stands
(`get?_insertAll`).
-/

namespace FrontDoor

namespace Entries

variable {α : Type}

theorem Sorted.nodup {l : List (String × α)} (h : Sorted l) : (l.map Prod.fst).Nodup := by
  rw [List.nodup_iff_pairwise_ne, List.pairwise_map]
  refine h.imp ?_
  intro a b hlt heq
  rw [heq] at hlt
  exact String.lt_irrefl _ hlt

theorem get?_eq_none {k : String} {l : List (String × α)} (h : ∀ v, (k, v) ∉ l) :
    get? k l = none := by
  induction l with
  | nil => rfl
  | cons hd tl ih =>
    obtain ⟨k', v'⟩ := hd
    rw [get?, if_neg, ih]
    · exact fun v hv => h v (List.mem_cons_of_mem _ hv)
    · rintro rfl
      exact h v' List.mem_cons_self

/-- Of a list with distinct names, looking up finds exactly the members. -/
theorem get?_eq_some_iff {k : String} {v : α} {l : List (String × α)}
    (h : (l.map Prod.fst).Nodup) : get? k l = some v ↔ (k, v) ∈ l := by
  induction l with
  | nil => simp [get?]
  | cons hd tl ih =>
    obtain ⟨k', v'⟩ := hd
    rw [List.map_cons, List.nodup_cons] at h
    obtain ⟨hnew, htl⟩ := h
    rw [get?, List.mem_cons, Prod.mk.injEq]
    by_cases hk : k = k'
    · subst hk
      have hnot : (k, v) ∉ tl := fun hv => hnew (List.mem_map.mpr ⟨_, hv, rfl⟩)
      simp [hnot, eq_comm]
    · simp [hk, ih htl]

theorem get?_perm {k : String} {l l' : List (String × α)} (hp : l.Perm l')
    (h : (l'.map Prod.fst).Nodup) : get? k l = get? k l' := by
  have hl : (l.map Prod.fst).Nodup := (hp.map Prod.fst).nodup_iff.mpr h
  ext v
  rw [get?_eq_some_iff hl, get?_eq_some_iff h, hp.mem_iff]

end Entries

namespace Dictionary

variable {α : Type}

theorem nodup_names (d : Dictionary α) : (d.toList.map Prod.fst).Nodup := d.sorted.nodup

theorem mem_toList_iff {d : Dictionary α} {k : String} {v : α} :
    (k, v) ∈ d.toList ↔ d.get? k = some v :=
  (Entries.get?_eq_some_iff d.sorted.nodup).symm

/-- The size is the number of names with a value. -/
theorem size_eq_encard (d : Dictionary α) : (d.size : ℕ∞) = {k | (d.get? k).isSome}.encard := by
  have hset : {k | (d.get? k).isSome} = ((d.toList.map Prod.fst).toFinset : Set String) := by
    ext k
    simp [Option.isSome_iff_exists, ← mem_toList_iff]
  rw [hset, Set.encard_coe_eq_coe_finsetCard, List.toFinset_card_of_nodup d.nodup_names,
    List.length_map]
  rfl

/-- Dictionaries with the same look-ups are equal. -/
theorem ext_get? {d e : Dictionary α} (h : ∀ k, d.get? k = e.get? k) : d = e := by
  have hmem : ∀ p, p ∈ d.entries ↔ p ∈ e.entries := by
    rintro ⟨k, v⟩
    calc (k, v) ∈ d.entries ↔ d.get? k = some v := mem_toList_iff
      _ ↔ e.get? k = some v := by rw [h k]
      _ ↔ (k, v) ∈ e.entries := mem_toList_iff.symm
  have hperm : d.entries.Perm e.entries :=
    (List.perm_ext_iff_of_nodup d.nodup_names.of_map e.nodup_names.of_map).mpr hmem
  have hentries : d.entries = e.entries := by
    refine hperm.eq_of_pairwise (fun a b _ _ hab hba => ?_) d.sorted e.sorted
    exact absurd (String.lt_trans hab hba) (String.lt_irrefl _)
  cases d
  cases e
  cases hentries
  rfl

theorem ofList_append_singleton (l : List (String × α)) (e : String × α) :
    ofList (l ++ [e]) = (ofList l).insert e.1 e.2 := List.foldl_append

/-- In the dictionary of a list a name has the value of its last entry. -/
theorem get?_ofList_eq_some_iff {l : List (String × α)} {k : String} {v : α} :
    (ofList l).get? k = some v ↔
      ∃ front back, l = front ++ (k, v) :: back ∧ ∀ e ∈ back, e.1 ≠ k := by
  induction l using List.reverseRecOn with
  | nil =>
    constructor
    · intro h
      cases h
    · rintro ⟨front, back, h, -⟩
      simp at h
  | append_singleton l e ih =>
    obtain ⟨k', v'⟩ := e
    rw [ofList_append_singleton, get?_insert]
    constructor
    · intro h
      by_cases hk : k = k'
      · subst hk
        rw [if_pos rfl] at h
        obtain rfl := Option.some.inj h
        exact ⟨l, [], rfl, by simp⟩
      · rw [if_neg hk] at h
        obtain ⟨front, back, rfl, hback⟩ := ih.mp h
        refine ⟨front, back ++ [(k', v')], by simp, ?_⟩
        intro e he
        rcases List.mem_append.mp he with he | he
        · exact hback e he
        · rw [List.mem_singleton.mp he]
          exact Ne.symm hk
    · rintro ⟨front, back, h, hback⟩
      -- The entry that was put in last is the one found, or stands behind it.
      rcases List.eq_nil_or_concat back with rfl | ⟨back, e, rfl⟩
      · obtain ⟨-, h⟩ := List.append_inj' h rfl
        cases h
        exact if_pos rfl
      · rw [List.concat_eq_append, ← List.cons_append, ← List.append_assoc] at h
        obtain ⟨rfl, he⟩ := List.append_inj' h rfl
        cases he
        have hk : k' ≠ k := hback (k', v') (by simp)
        rw [if_neg (Ne.symm hk)]
        exact ih.mpr ⟨front, back, rfl, fun e he => hback e (by simp [he])⟩

/-- Puts in the entries of a list, one after the other. -/
def insertAll (d : Dictionary α) (l : List (String × α)) : Dictionary α :=
  l.foldl (fun d e => d.insert e.1 e.2) d

/-- The entries of a list with distinct names come before what was there. -/
theorem get?_insertAll {l : List (String × α)} (h : (l.map Prod.fst).Nodup) (d : Dictionary α)
    (k : String) : (d.insertAll l).get? k = (Entries.get? k l).or (d.get? k) := by
  induction l generalizing d with
  | nil => rfl
  | cons hd tl ih =>
    obtain ⟨k', v'⟩ := hd
    rw [List.map_cons, List.nodup_cons] at h
    obtain ⟨hnew, htl⟩ := h
    rw [insertAll, List.foldl_cons, ← insertAll, ih htl, get?_insert, Entries.get?]
    by_cases hk : k = k'
    · subst hk
      have hnone : Entries.get? k tl = none :=
        Entries.get?_eq_none fun v hv => hnew (List.mem_map.mpr ⟨_, hv, rfl⟩)
      simp [hnone]
    · simp [hk]

/-- Putting in the entries of a dictionary, in any order, overrides its names and no others. -/
theorem get?_insertAll_perm {l : List (String × α)} {e : Dictionary α} (h : l.Perm e.toList)
    (d : Dictionary α) (k : String) : (d.insertAll l).get? k = (e.get? k).or (d.get? k) := by
  have hl : (l.map Prod.fst).Nodup := (h.map Prod.fst).nodup_iff.mpr e.nodup_names
  rw [get?_insertAll hl, Entries.get?_perm h e.nodup_names]
  rfl

/-- The order in which the entries of a dictionary are put in leaves no trace. -/
theorem insertAll_perm {l : List (String × α)} {e : Dictionary α} (h : l.Perm e.toList)
    (d : Dictionary α) : d.insertAll l = d.insertAll e.toList :=
  ext_get? fun k => by rw [get?_insertAll_perm h, get?_insertAll_perm .rfl]

end Dictionary

end FrontDoor
