import FrontDoor.Bytes

/-!
# Dictionaries

A dictionary is its list of entries in the order of their keys, each key once. Two dictionaries
with the same look-ups are therefore equal, and listing one shows no trace of the order in which it
was filled.
-/

namespace FrontDoor

/-- Texts are ordered character by character, which is the order of their bytes in UTF-8. -/
theorem string_lt_of_not_lt {a b : String} (h : ¬a < b) (h' : a ≠ b) : b < a :=
  Decidable.byContradiction fun hb =>
    h' (String.le_antisymm (String.not_lt.1 hb) (String.not_lt.1 h))

namespace Entries

/-- Keys grow strictly along the list. -/
def Sorted {α : Type} (l : List (String × α)) : Prop := l.Pairwise fun a b => a.1 < b.1

def get? {α : Type} (k : String) : List (String × α) → Option α
  | [] => none
  | (k', v) :: rest => if k = k' then some v else get? k rest

/-- Puts a value under a key, in place of any value there. -/
def insert {α : Type} (k : String) (v : α) : List (String × α) → List (String × α)
  | [] => [(k, v)]
  | (k', v') :: rest =>
    if k < k' then (k, v) :: (k', v') :: rest
    else if k = k' then (k, v) :: rest
    else (k', v') :: insert k v rest

def erase {α : Type} (k : String) (l : List (String × α)) : List (String × α) :=
  l.filter fun e => e.1 ≠ k

variable {α : Type}

theorem mem_insert {k : String} {v : α} {e : String × α} {l : List (String × α)} :
    e ∈ insert k v l → e = (k, v) ∨ e ∈ l := by
  induction l with
  | nil => simp [insert]
  | cons hd tl ih =>
    obtain ⟨k', v'⟩ := hd
    simp only [insert]
    split
    · simp only [List.mem_cons]; exact id
    · split
      · simp only [List.mem_cons]; exact fun h => h.imp id Or.inr
      · simp only [List.mem_cons]
        rintro (h | h)
        · exact .inr (.inl h)
        · exact (ih h).imp id Or.inr

theorem Sorted.insert {k : String} {v : α} {l : List (String × α)} (h : Sorted l) :
    Sorted (insert k v l) := by
  induction l with
  | nil => simp [Sorted, Entries.insert]
  | cons hd tl ih =>
    obtain ⟨k', v'⟩ := hd
    obtain ⟨hhd, htl⟩ := List.pairwise_cons.1 h
    simp only [Entries.insert]
    split
    · next hk =>
      refine List.pairwise_cons.2 ⟨fun e he => ?_, h⟩
      rcases List.mem_cons.1 he with rfl | he
      · exact hk
      · exact String.lt_trans hk (hhd e he)
    · next hk =>
      split
      · next hk' => subst hk'; exact List.pairwise_cons.2 ⟨hhd, htl⟩
      · next hk' =>
        refine List.pairwise_cons.2 ⟨fun e he => ?_, ih htl⟩
        rcases mem_insert he with rfl | he
        · exact string_lt_of_not_lt hk hk'
        · exact hhd e he

theorem Sorted.erase {k : String} {l : List (String × α)} (h : Sorted l) : Sorted (erase k l) :=
  List.Pairwise.filter _ h

theorem get?_insert (k k' : String) (v : α) (l : List (String × α)) :
    get? k' (insert k v l) = if k' = k then some v else get? k' l := by
  induction l with
  | nil => simp [insert, get?]
  | cons hd tl ih =>
    obtain ⟨j, w⟩ := hd
    simp only [insert]
    split
    · simp [get?]
    · split
      · next hk => subst hk; simp only [get?]; split <;> rfl
      · next hk =>
        simp only [get?, ih]
        by_cases h : k' = j
        · subst h; simp [Ne.symm hk]
        · simp [h]

theorem get?_erase (k k' : String) (l : List (String × α)) :
    get? k' (erase k l) = if k' = k then none else get? k' l := by
  induction l with
  | nil => simp [erase, get?]
  | cons hd tl ih =>
    obtain ⟨j, w⟩ := hd
    simp only [erase, List.filter_cons] at *
    by_cases hj : j = k
    · subst hj
      simp only [ne_eq, not_true_eq_false, decide_false, Bool.false_eq_true, if_false, ih, get?]
      split <;> rfl
    · simp only [ne_eq, hj, not_false_eq_true, decide_true, if_true, get?, ih]
      by_cases h : k' = j
      · subst h; simp [hj]
      · simp [h]

end Entries

/-- A finite map from texts. -/
structure Dictionary (α : Type) where
  entries : List (String × α)
  sorted : Entries.Sorted entries

namespace Dictionary

variable {α : Type}

def empty : Dictionary α := ⟨[], List.Pairwise.nil⟩

instance : Inhabited (Dictionary α) := ⟨empty⟩

instance [DecidableEq α] : DecidableEq (Dictionary α) := fun a b =>
  decidable_of_iff (a.entries = b.entries)
    ⟨fun h => by cases a; cases b; simpa using h, fun h => by rw [h]⟩

def get? (d : Dictionary α) (k : String) : Option α := Entries.get? k d.entries

def insert (d : Dictionary α) (k : String) (v : α) : Dictionary α :=
  ⟨Entries.insert k v d.entries, d.sorted.insert⟩

def erase (d : Dictionary α) (k : String) : Dictionary α :=
  ⟨Entries.erase k d.entries, d.sorted.erase⟩

/-- The entries, in the order of their keys. -/
def toList (d : Dictionary α) : List (String × α) := d.entries

/-- The values, in the order of their keys. -/
def values (d : Dictionary α) : List α := d.entries.map (·.2)

def size (d : Dictionary α) : Nat := d.entries.length

def contains (d : Dictionary α) (k : String) : Bool := (d.get? k).isSome

/-- The dictionary of a list of pairs; the last pair of a key counts. -/
def ofList (l : List (String × α)) : Dictionary α := l.foldl (fun d e => d.insert e.1 e.2) empty

@[simp] theorem get?_empty (k : String) : (empty : Dictionary α).get? k = none := rfl

@[simp] theorem get?_insert (d : Dictionary α) (k k' : String) (v : α) :
    (d.insert k v).get? k' = if k' = k then some v else d.get? k' :=
  Entries.get?_insert k k' v d.entries

@[simp] theorem get?_erase (d : Dictionary α) (k k' : String) :
    (d.erase k).get? k' = if k' = k then none else d.get? k' :=
  Entries.get?_erase k k' d.entries

end Dictionary

end FrontDoor
