import FrontDoor.Metrics.Series
import FrontDoor.Proofs.Dictionary
import Mathlib.Data.Set.List

/-!
# Series and what was recorded in them

When no two lists of label values read the same, each has a series of its own, which holds what was
recorded under it (`get?_recordAll`). Listing the series in the order of their label values yields
every one of them once, in strictly growing order (`pairwise_labels_sorted`).
-/

namespace FrontDoor

/-- Something that is recorded under some label values. -/
structure Record (α : Type) where
  labels : List String
  change : α → α

namespace SeriesTable

variable {α : Type} {records : List (Record α)}

def recordAll (t : SeriesTable α) (fresh : α) (records : List (Record α)) : SeriesTable α :=
  records.foldl (fun t r => t.update fresh r.labels r.change) t

/-- Whether label values that read the same are the same. -/
def Untangled (records : List (Record α)) : Prop :=
  ∀ r ∈ records, ∀ r' ∈ records, key r.labels = key r'.labels → r.labels = r'.labels

/-- What the records under some label values come to. -/
def total (fresh : α) (records : List (Record α)) (labels : List String) : α :=
  records.foldl (fun value r => if r.labels = labels then r.change value else value) fresh

theorem total_concat (fresh : α) (records : List (Record α)) (r : Record α) (labels : List String) :
    total fresh (records ++ [r]) labels =
      if r.labels = labels then r.change (total fresh records labels)
      else total fresh records labels := List.foldl_append

theorem total_of_unrecorded (fresh : α) {labels : List String}
    (h : ∀ r ∈ records, r.labels ≠ labels) : total fresh records labels = fresh := by
  induction records using List.reverseRecOn with
  | nil => rfl
  | append_singleton records r ih =>
    rw [total_concat, if_neg (h r (by simp))]
    exact ih fun r' hr' => h r' (by simp [hr'])

/-- The first record whose label values read like a text, if there is one. -/
def recordOf? (records : List (Record α)) (k : String) : Option (Record α) :=
  records.find? (key ·.labels = k)

theorem recordOf?_concat (records : List (Record α)) (r : Record α) (k : String) :
    recordOf? (records ++ [r]) k =
      (recordOf? records k).or (if key r.labels = k then some r else none) := by
  rw [recordOf?, List.find?_append]
  congr 1
  by_cases h : key r.labels = k <;> simp [h]

theorem of_recordOf? {k : String} {r : Record α} (h : recordOf? records k = some r) :
    r ∈ records ∧ key r.labels = k :=
  ⟨List.mem_of_find?_eq_some h, by simpa using List.find?_some h⟩

/-- The first record that reads like another one has the same label values. -/
theorem exists_recordOf? (h : Untangled records) {r : Record α} (hr : r ∈ records) :
    ∃ first, recordOf? records (key r.labels) = some first ∧ first.labels = r.labels := by
  obtain ⟨first, hfirst⟩ : ∃ first, recordOf? records (key r.labels) = some first :=
    Option.isSome_iff_exists.mp (List.find?_isSome.mpr ⟨r, hr, by simp⟩)
  obtain ⟨hmem, hreads⟩ := of_recordOf? hfirst
  exact ⟨first, hfirst, h first hmem r hr hreads⟩

theorem Untangled.of_concat {r : Record α} (h : Untangled (records ++ [r])) : Untangled records :=
  fun a ha b hb => h a (by simp [ha]) b (by simp [hb])

/-- A new family has a series for all label values that were recorded under, and no other. -/
theorem get?_recordAll (fresh : α) (h : Untangled records) (k : String) :
    (recordAll .empty fresh records).get? k =
      (recordOf? records k).map fun r => ⟨r.labels, total fresh records r.labels⟩ := by
  induction records using List.reverseRecOn generalizing k with
  | nil => rfl
  | append_singleton records r ih =>
    have ih := ih h.of_concat
    have hfold : recordAll .empty fresh (records ++ [r]) =
        (recordAll .empty fresh records).update fresh r.labels r.change := List.foldl_append
    rw [hfold, update, Dictionary.get?_insert, find, ih, ih, recordOf?_concat]
    by_cases hk : k = key r.labels
    · subst hk
      rw [if_pos rfl, if_pos rfl]
      cases hfirst : recordOf? records (key r.labels) with
      | none =>
        have hnone : ∀ r' ∈ records, r'.labels ≠ r.labels := fun r' hr' heq =>
          List.find?_eq_none.mp hfirst r' hr' (by simp [heq])
        simp [total_concat, total_of_unrecorded fresh hnone]
      | some first =>
        obtain ⟨hmem, hreads⟩ := of_recordOf? hfirst
        have hlabels := h first (by simp [hmem]) r (by simp) hreads
        simp [total_concat, hlabels]
    · rw [if_neg hk, if_neg (Ne.symm hk), Option.or_none]
      cases hfirst : recordOf? records k with
      | none => rfl
      | some first =>
        obtain ⟨-, hreads⟩ := of_recordOf? hfirst
        have hother : r.labels ≠ first.labels := fun heq => hk (hreads ▸ heq ▸ rfl)
        simp [total_concat, hother]

theorem find_recordAll (fresh : α) (h : Untangled records) {labels : List String}
    (hmem : labels ∈ records.map Record.labels) :
    (recordAll .empty fresh records).find fresh labels = ⟨labels, total fresh records labels⟩ := by
  obtain ⟨r, hr, rfl⟩ := List.mem_map.mp hmem
  obtain ⟨first, hfirst, hlabels⟩ := exists_recordOf? h hr
  rw [find, get?_recordAll fresh h, hfirst, Option.map_some, Option.getD_some, hlabels]

theorem mem_values_recordAll (fresh : α) (h : Untangled records) {s : Series α} :
    s ∈ (recordAll .empty fresh records).values ↔
      ∃ r ∈ records, s = ⟨r.labels, total fresh records r.labels⟩ := by
  have hvalues : s ∈ (recordAll .empty fresh records).values ↔
      ∃ k, (recordAll .empty fresh records).get? k = some s := by
    simp [Dictionary.values, ← Dictionary.mem_toList_iff, Dictionary.toList]
  rw [hvalues]
  constructor
  · rintro ⟨k, hk⟩
    rw [get?_recordAll fresh h, Option.map_eq_some_iff] at hk
    obtain ⟨r, hr, rfl⟩ := hk
    exact ⟨r, (of_recordOf? hr).1, rfl⟩
  · rintro ⟨r, hr, rfl⟩
    obtain ⟨first, hfirst, hlabels⟩ := exists_recordOf? h hr
    refine ⟨key r.labels, ?_⟩
    rw [get?_recordAll fresh h, hfirst, Option.map_some, hlabels]

/-- Every series stands under what its label values read. -/
theorem nodup_labels_recordAll (fresh : α) (h : Untangled records) :
    ((recordAll .empty fresh records).values.map Series.labels).Nodup := by
  refine List.Nodup.of_map key ?_
  have hkeys : ∀ e ∈ (recordAll .empty fresh records).toList, key e.2.labels = e.1 := by
    rintro ⟨k, s⟩ he
    rw [Dictionary.mem_toList_iff, get?_recordAll fresh h, Option.map_eq_some_iff] at he
    obtain ⟨r, hr, rfl⟩ := he
    exact (of_recordOf? hr).2
  have hnames : ((recordAll .empty fresh records).values.map Series.labels).map key =
      (recordAll .empty fresh records).toList.map Prod.fst := by
    rw [Dictionary.values, List.map_map, List.map_map]
    exact List.map_congr_left hkeys
  rw [hnames]
  exact Dictionary.nodup_names _

/-- Records in another order make the same family if each series comes to the same. -/
theorem recordAll_perm (fresh : α) {records' : List (Record α)} (hperm : records.Perm records')
    (h : Untangled records)
    (htotal : ∀ r ∈ records, total fresh records r.labels = total fresh records' r.labels) :
    recordAll .empty fresh records = recordAll .empty fresh records' := by
  have h' : Untangled records' := fun r hr r' hr' =>
    h r (hperm.mem_iff.mpr hr) r' (hperm.mem_iff.mpr hr')
  refine Dictionary.ext_get? fun k => ?_
  rw [get?_recordAll fresh h, get?_recordAll fresh h']
  cases hfirst : recordOf? records k with
  | none =>
    have hnone : recordOf? records' k = none := List.find?_eq_none.mpr fun r hr =>
      List.find?_eq_none.mp hfirst r (hperm.mem_iff.mpr hr)
    rw [hnone]
    rfl
  | some r =>
    obtain ⟨hmem, rfl⟩ := of_recordOf? hfirst
    have hmem' : r ∈ records' := hperm.mem_iff.mp hmem
    obtain ⟨first, hfirst', hlabels⟩ := exists_recordOf? h' hmem'
    rw [hfirst', Option.map_some, Option.map_some, htotal r hmem, hlabels]

/-! ## The order of label values -/

theorem precedes_iff {a b : List String} : precedes a b = true ↔ a < b ∨ a = b := by
  induction a generalizing b with
  | nil => cases b <;> simp [precedes]
  | cons x a ih =>
    cases b with
    | nil => simp [precedes]
    | cons y b =>
      simp only [precedes, Bool.or_eq_true, Bool.and_eq_true, decide_eq_true_eq, ih,
        List.cons_lt_cons_iff, List.cons.injEq]
      tauto

theorem precedes_trans {a b c : List String} (hab : precedes a b = true)
    (hbc : precedes b c = true) : precedes a c = true := by
  rw [precedes_iff] at *
  rcases hab with hab | rfl
  · rcases hbc with hbc | rfl
    · exact .inl (List.lt_trans hab hbc)
    · exact .inl hab
  · exact hbc

theorem precedes_total (a b : List String) : (precedes a b || precedes b a) = true := by
  rw [Bool.or_eq_true]
  induction a generalizing b with
  | nil => exact .inl (by cases b <;> rfl)
  | cons x a ih =>
    cases b with
    | nil => exact .inr rfl
    | cons y b =>
      simp only [precedes, Bool.or_eq_true, Bool.and_eq_true, decide_eq_true_eq]
      by_cases hlt : x < y
      · exact .inl (.inl hlt)
      by_cases heq : x = y
      · exact (ih b).imp (fun h => .inr ⟨heq, h⟩) (fun h => .inr ⟨heq.symm, h⟩)
      · exact .inr (.inl (string_lt_of_not_lt hlt heq))

/-- Series are listed in strictly growing order of their label values. -/
theorem pairwise_labels_sorted (fresh : α) (h : Untangled records) :
    ((recordAll .empty fresh records).sorted.map Series.labels).Pairwise (· < ·) := by
  have hperm := List.mergeSort_perm (recordAll .empty fresh records).values
    fun a b => precedes a.labels b.labels
  have hordered : (recordAll .empty fresh records).sorted.Pairwise fun a b =>
      precedes a.labels b.labels = true := by
    apply List.pairwise_mergeSort
    · exact fun a b c => precedes_trans
    · exact fun a b => precedes_total a.labels b.labels
  have hnodup : ((recordAll .empty fresh records).sorted.map Series.labels).Nodup :=
    (hperm.map Series.labels).nodup_iff.mpr (nodup_labels_recordAll fresh h)
  rw [List.nodup_iff_pairwise_ne, List.pairwise_map] at hnodup
  rw [List.pairwise_map]
  exact hordered.imp₂ (fun _ _ hle hne => (precedes_iff.mp hle).resolve_right hne) hnodup

theorem mem_sorted_recordAll (fresh : α) (h : Untangled records) {s : Series α} :
    s ∈ (recordAll .empty fresh records).sorted ↔
      ∃ r ∈ records, s = ⟨r.labels, total fresh records r.labels⟩ :=
  List.mem_mergeSort.trans (mem_values_recordAll fresh h)

/-- The series of a family whose label values are made from keys: one for each key that was recorded
under, in the order of the label values. -/
theorem exists_sorted_recordAll {κ : Type} {labelsOf : κ → List String}
    (hinjective : Function.Injective labelsOf) {keys : List κ}
    (hkeys : records.map Record.labels = keys.map labelsOf) (fresh : α) (h : Untangled records) :
    ∃ listed : List κ, (listed.map labelsOf).Pairwise (· < ·) ∧ (∀ p, p ∈ listed ↔ p ∈ keys) ∧
      (recordAll .empty fresh records).sorted =
        listed.map fun p => ⟨labelsOf p, total fresh records (labelsOf p)⟩ := by
  have hmem : ∀ labels, labels ∈ (recordAll .empty fresh records).sorted.map Series.labels ↔
      labels ∈ keys.map labelsOf := by
    intro labels
    rw [← hkeys, List.mem_map, List.mem_map]
    constructor
    · rintro ⟨s, hs, rfl⟩
      obtain ⟨r, hr, rfl⟩ := (mem_sorted_recordAll fresh h).mp hs
      exact ⟨r, hr, rfl⟩
    · rintro ⟨r, hr, rfl⟩
      exact ⟨_, (mem_sorted_recordAll fresh h).mpr ⟨r, hr, rfl⟩, rfl⟩
  obtain ⟨listed, hlisted⟩ : ∃ listed : List κ,
      listed.map labelsOf = (recordAll .empty fresh records).sorted.map Series.labels := by
    rw [← Set.mem_range, Set.range_list_map]
    intro labels hlabels
    obtain ⟨p, -, rfl⟩ := List.mem_map.mp ((hmem labels).mp hlabels)
    exact ⟨p, rfl⟩
  refine ⟨listed, hlisted ▸ pairwise_labels_sorted fresh h, fun p => ?_, ?_⟩
  · rw [← List.mem_map_of_injective hinjective, hlisted, hmem, List.mem_map_of_injective hinjective]
  · have hseries : ∀ s ∈ (recordAll .empty fresh records).sorted,
        (⟨s.labels, total fresh records s.labels⟩ : Series α) = s := by
      intro s hs
      obtain ⟨r, -, rfl⟩ := (mem_sorted_recordAll fresh h).mp hs
      rfl
    calc (recordAll .empty fresh records).sorted
        = ((recordAll .empty fresh records).sorted.map Series.labels).map
            fun labels => ⟨labels, total fresh records labels⟩ := by
          rw [List.map_map]
          exact ((List.map_congr_left hseries).trans (List.map_id _)).symm
      _ = _ := by rw [← hlisted, List.map_map]; rfl

end SeriesTable

end FrontDoor
