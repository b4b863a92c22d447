import FrontDoor.Load.Launch
import FrontDoor.Proofs.CommandLine.Invocations
import Mathlib.Algebra.Group.Nat.Defs

/-!
# Which load runs can begin

The command line takes any number of 64 bits for the users and for the seconds of a load run, and
the machine does not: a run begins exactly where its end is within the range of the clock and the
places of its users within the range of addresses (`launch_eq_ok_iff`).
-/

namespace FrontDoor

namespace LoadPlan

theorem launch_eq_ok_iff {p : LoadPlan} {now deadline : Nat} :
    p.launch now = .ok deadline ↔
      deadline = now + p.duration ∧ deadline / 1000 < 2 ^ 63 ∧ p.users.toNat < 2 ^ 60 := by
  have hlimit : machineLimit = 2 ^ 63 := rfl
  have hplaces : placeSize * p.users.toNat < 2 ^ 63 ↔ p.users.toNat < 2 ^ 60 := by
    rw [placeSize]
    omega
  rw [launch, hlimit]
  split
  · next hlong =>
    refine ⟨fun h => (by cases h), ?_⟩
    rintro ⟨rfl, hend, -⟩
    exact absurd hend (Nat.not_lt.mpr hlong)
  · next hend =>
    split
    · next hmany =>
      refine ⟨fun h => (by cases h), fun h => ?_⟩
      exact absurd (hplaces.mpr h.2.2) (Nat.not_lt.mpr hmany)
    · next hfew =>
      rw [Except.ok.injEq, eq_comm]
      refine (and_iff_left_of_imp ?_).symm
      rintro rfl
      exact ⟨Nat.not_le.mp hend, hplaces.mp (Nat.not_le.mp hfew)⟩

end LoadPlan

namespace CommandLine

/-- A run for whole seconds ends as many seconds later. -/
theorem LoadFlags.exists_launch_iff (flags : LoadFlags) (now : Nat) :
    (∃ deadline, flags.plan.launch now = .ok deadline) ↔
      now / 1000 + flags.seconds.toNat < 2 ^ 63 ∧ (flags.users.getD 10).toNat < 2 ^ 60 := by
  have hend : (now + flags.plan.duration) / 1000 = now / 1000 + flags.seconds.toNat :=
    Nat.add_mul_div_left now _ (by decide)
  simp only [LoadPlan.launch_eq_ok_iff, exists_eq_left, hend]
  rfl

/-- Whatever the options of a load command, there is a command line that asks for it, and its run
begins exactly where the seconds since the clock began stay below 2^63 to the end and there are
fewer than 2^60 users. -/
theorem load_begins_iff (flags : LoadFlags) (now : Nat) :
    (∃ words, Invocation.read ("load" :: words) = .ok ⟨flags.verbose, .load flags⟩) ∧
      ((∃ deadline, flags.plan.launch now = .ok deadline) ↔
        now / 1000 + flags.seconds.toNat < 2 ^ 63 ∧ (flags.users.getD 10).toNat < 2 ^ 60) := by
  obtain ⟨words, hwords⟩ := LoadFlags.exists_writes flags
  exact ⟨⟨words, Invocation.read_load_of_writes .nothing hwords⟩, flags.exists_launch_iff now⟩

/-- Two command lines that are taken for a run that never begins: one has too many users, and the
other goes on for too long. -/
theorem not_every_load_begins :
    ∃ many long : LoadFlags,
      Invocation.read ["load", "-u", "18446744073709551615", "-d", "0"] = .ok ⟨false, .load many⟩ ∧
        (∀ now deadline, many.plan.launch now ≠ .ok deadline) ∧
      Invocation.read ["load", "-d", "9223372036854775808"] = .ok ⟨false, .load long⟩ ∧
        ∀ now deadline, long.plan.launch now ≠ .ok deadline := by
  refine ⟨⟨none, some 18446744073709551615, some 0, none, none, false⟩,
    ⟨none, none, some 9223372036854775808, none, none, false⟩, by rfl, ?_,
    by rfl, ?_⟩
  · intro now deadline h
    exact absurd (LoadPlan.launch_eq_ok_iff.mp h).2.2 (by decide)
  · intro now deadline h
    have hbegins := (LoadFlags.exists_launch_iff _ now).mp ⟨deadline, h⟩
    exact absurd (Nat.lt_of_le_of_lt (Nat.le_add_left _ _) hbegins.1) (by decide)

end CommandLine

end FrontDoor
