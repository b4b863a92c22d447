import FrontDoor.Address.Table
import Mathlib.Data.List.Nodup
import Mathlib.Data.List.Perm.Subperm

/-!
# Who listens where

Binding changes the listener of one address, which was free, and releasing that of one address
(`bind_cases`, `listener?_release`). Binding fails only when every address that meets the demand is
in use (`bind_fails_iff`): an address with a port meets it alone, and for any port more of them are
tried than there are addresses in use.
-/

namespace FrontDoor

theorem SocketAddress.withPort_injective {a : SocketAddress} {p q : UInt16}
    (h : a.withPort p = a.withPort q) : p = q := by
  cases a with
  | v4 => exact (SocketAddress.v4.inj h).2
  | v6 => exact (SocketAddress.v6.inj h).2.2

namespace AddressTable

variable {ι : Type} {t : AddressTable ι} {a b : SocketAddress}

/-- The ports that are given out on demand, by their numbers. -/
def demandPort (i : Nat) : UInt16 := UInt16.ofNat (32768 + i)

/-- How many ports are given out on demand. -/
def demandCount : Nat := 28232

theorem demandPort_injective {i j : Nat} (hi : i < demandCount) (hj : j < demandCount)
    (h : demandPort i = demandPort j) : i = j := by
  have hnat := congrArg UInt16.toNat h
  simp only [demandPort, UInt16.toNat_ofNat'] at hnat
  unfold demandCount at hi hj
  omega

theorem demandPorts_eq (t : AddressTable ι) :
    t.demandPorts = (List.range (min (t.entries.length + 1) demandCount)).map demandPort := rfl

/-- Whether an address is what someone gets who asks for another one: the very same, or one of the
ports on demand. -/
def Meets (asked given : SocketAddress) : Prop :=
  if asked.port = 0 then ∃ i < demandCount, given = asked.withPort (demandPort i)
  else given = asked

/-! ## Listeners -/

theorem isTaken_iff_exists_listener : t.isTaken a = true ↔ ∃ who, t.listener? a = some who := by
  rw [isTaken_iff, listener?, List.mem_map]
  constructor
  · rintro ⟨e, he, rfl⟩
    have hfound : (t.entries.find? (·.1 = e.1)).isSome :=
      List.find?_isSome.mpr ⟨e, he, decide_eq_true rfl⟩
    obtain ⟨e', he'⟩ := Option.isSome_iff_exists.mp hfound
    exact ⟨e'.2, by rw [he']; rfl⟩
  · rintro ⟨who, hwho⟩
    obtain ⟨e, he, -⟩ := Option.map_eq_some_iff.mp hwho
    have hmatch := List.find?_some he
    exact ⟨e, List.mem_of_find?_eq_some he, of_decide_eq_true hmatch⟩

theorem isTaken_eq_false_iff : t.isTaken a = false ↔ t.listener? a = none := by
  rw [← Bool.not_eq_true, isTaken_iff_exists_listener, Option.eq_none_iff_forall_ne_some,
    not_exists]

/-- Who listens anywhere is in the table. -/
theorem exists_entry_of_listener {who : ι} (h : t.listener? a = some who) :
    ∃ e ∈ t.entries, e.2 = who := by
  obtain ⟨e, he, rfl⟩ := Option.map_eq_some_iff.mp h
  exact ⟨e, List.mem_of_find?_eq_some he, rfl⟩

theorem listener?_release (t : AddressTable ι) (a b : SocketAddress) :
    (t.release a).listener? b = if b = a then none else t.listener? b := by
  unfold release listener?
  rw [List.find?_filter]
  split
  · next heq =>
    subst heq
    rw [List.find?_eq_none.mpr, Option.map_none]
    rintro e - h
    simp at h
  · next hne =>
    congr 2
    funext e
    by_cases heq : e.1 = b
    · simp [heq, hne]
    · simp [heq]

/-! ## Places -/

theorem place?_of_port (hport : a.port ≠ 0) :
    t.place? a = if t.isTaken a then none else some a := if_neg hport

theorem place?_of_no_port (hport : a.port = 0) :
    t.place? a = (t.demandPorts.map a.withPort).find? fun b => !t.isTaken b := if_pos hport

theorem meets_of_place? (h : t.place? a = some b) : Meets a b := by
  unfold Meets
  split
  · next hport =>
    rw [place?_of_no_port hport, demandPorts_eq] at h
    have hmem := List.mem_of_find?_eq_some h
    simp only [List.mem_map, List.mem_range] at hmem
    obtain ⟨p, ⟨i, hi, rfl⟩, rfl⟩ := hmem
    exact ⟨i, Nat.lt_of_lt_of_le hi (Nat.min_le_right _ _), rfl⟩
  · next hport =>
    rw [place?_of_port hport] at h
    split at h
    · cases h
    · exact (Option.some.inj h).symm

theorem listener?_of_place? (h : t.place? a = some b) : t.listener? b = none := by
  rw [← isTaken_eq_false_iff, ← Bool.not_eq_true, isTaken_iff]
  exact place?_free h

/-- More ports than there are addresses in use cannot all be taken. -/
theorem exists_free_demandPort (a : SocketAddress) (hfew : t.entries.length < demandCount) :
    ∃ i < t.entries.length + 1, t.isTaken (a.withPort (demandPort i)) = false := by
  by_contra hall
  push Not at hall
  have hsubset : (List.range (t.entries.length + 1)).map (fun i => a.withPort (demandPort i)) ⊆
      t.entries.map (·.1) := by
    intro b hb
    obtain ⟨i, hi, rfl⟩ := List.mem_map.mp hb
    rw [← isTaken_iff, ← Bool.not_eq_false]
    exact hall i (List.mem_range.mp hi)
  have hnodup : ((List.range (t.entries.length + 1)).map
      fun i => a.withPort (demandPort i)).Nodup := by
    refine List.Nodup.map_on (fun i hi j hj heq => ?_) List.nodup_range
    rw [List.mem_range] at hi hj
    exact demandPort_injective (by omega) (by omega) (SocketAddress.withPort_injective heq)
  have hlength := (List.Nodup.subperm hnodup hsubset).length_le
  rw [List.length_map, List.length_range, List.length_map] at hlength
  omega

/-- A free port among those that are tried is enough. -/
theorem exists_place?_of_free (hport : a.port = 0) {i : Nat}
    (hi : i < min (t.entries.length + 1) demandCount)
    (hfree : t.isTaken (a.withPort (demandPort i)) = false) : ∃ b, t.place? a = some b := by
  rw [place?_of_no_port hport, demandPorts_eq, ← Option.isSome_iff_exists, List.find?_isSome]
  refine ⟨a.withPort (demandPort i), ?_, by rw [hfree]; rfl⟩
  exact List.mem_map_of_mem (List.mem_map_of_mem (List.mem_range.mpr hi))

/-- Whoever asks gets a place while an address that meets the demand is free. -/
theorem exists_place?_of_meets (hmeets : Meets a b) (hfree : t.listener? b = none) :
    ∃ c, t.place? a = some c := by
  unfold Meets at hmeets
  rw [← isTaken_eq_false_iff] at hfree
  split at hmeets
  · next hport =>
    -- Few addresses in use leave one of the ports that are tried, and else all ports are tried.
    by_cases hfew : t.entries.length < demandCount
    · obtain ⟨i, hi, hport'⟩ := exists_free_demandPort a hfew
      exact exists_place?_of_free hport (by omega) hport'
    · obtain ⟨i, hi, rfl⟩ := hmeets
      exact exists_place?_of_free hport (by omega) hfree
  · next hport =>
    subst hmeets
    exact ⟨b, by rw [place?_of_port hport, hfree]; rfl⟩

/-! ## Binding -/

theorem bind_of_place?_none (h : t.place? a = none) (who : ι) :
    t.bind a who = (.error .addressInUse, t) := by
  unfold bind
  split
  · rfl
  · next hplace => rw [h] at hplace; cases hplace

theorem bind_of_place?_some (h : t.place? a = some b) (who : ι) :
    (t.bind a who).1 = .ok b ∧ (t.bind a who).2.entries = (b, who) :: t.entries := by
  unfold bind
  split
  · next hplace => rw [h] at hplace; cases hplace
  · next hplace =>
    obtain rfl := Option.some.inj (h.symm.trans hplace)
    exact ⟨rfl, rfl⟩

/-- Binding fails and changes nothing, or puts the listener at a free address that meets the
demand. -/
theorem bind_cases (t : AddressTable ι) (a : SocketAddress) (who : ι) :
    (t.place? a = none ∧ t.bind a who = (.error .addressInUse, t)) ∨
      ∃ b, t.place? a = some b ∧ (t.bind a who).1 = .ok b ∧
        ∀ c, (t.bind a who).2.listener? c = if c = b then some who else t.listener? c := by
  cases hplace : t.place? a with
  | none => exact .inl ⟨rfl, bind_of_place?_none hplace who⟩
  | some b =>
    obtain ⟨hok, hentries⟩ := bind_of_place?_some hplace who
    refine .inr ⟨b, rfl, hok, fun c => ?_⟩
    unfold listener?
    rw [hentries, List.find?_cons]
    by_cases heq : b = c
    · subst heq
      simp
    · simp [heq, Ne.symm heq]

/-- Binding fails exactly when every address that meets the demand is in use. -/
theorem bind_fails_iff (who : ι) :
    (∃ e, (t.bind a who).1 = .error e) ↔ ∀ b, Meets a b → ∃ other, t.listener? b = some other := by
  rcases t.bind_cases a who with ⟨hplace, hbind⟩ | ⟨b, hplace, hok, -⟩
  · rw [hbind]
    refine iff_of_true ⟨_, rfl⟩ fun b hmeets => Option.ne_none_iff_exists'.mp fun hfree => ?_
    obtain ⟨c, hc⟩ := exists_place?_of_meets hmeets hfree
    rw [hplace] at hc
    cases hc
  · rw [hok]
    refine iff_of_false (fun h => ?_) fun hall => ?_
    · obtain ⟨e, he⟩ := h
      cases he
    · obtain ⟨other, hother⟩ := hall b (meets_of_place? hplace)
      rw [listener?_of_place? hplace] at hother
      cases hother

end AddressTable

end FrontDoor
