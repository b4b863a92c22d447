import FrontDoor.Load.Plan

/-!
# Beginning a load run

Before users begin, the end of the run is fixed and a place is reserved for each of them. Both can
be more than a machine with 64-bit addresses can express.
-/

namespace FrontDoor

/-- Why a plan cannot be begun. -/
inductive LaunchFault where
  /-- The end of the run is later than the clock can tell. -/
  | tooLong
  /-- The places of the users exceed what can be addressed. -/
  | tooManyUsers
  deriving DecidableEq, Repr

def LaunchFault.message : LaunchFault → String
  | .tooLong => "overflow when adding duration to instant"
  | .tooManyUsers => "capacity overflow"

namespace LoadPlan

/-- Seconds and sizes have to stay below this. -/
def machineLimit : Nat := Nat.pow 2 63

/-- The number of bytes that the place of a user takes. -/
def placeSize : Nat := 8

/-- The time at which a run ends that begins `now`, in milliseconds. -/
def launch (p : LoadPlan) (now : Nat) : Except LaunchFault Nat :=
  let deadline := now + p.duration
  if machineLimit ≤ deadline / 1000 then .error .tooLong
  else if machineLimit ≤ placeSize * p.users.toNat then .error .tooManyUsers
  else .ok deadline

end LoadPlan

end FrontDoor
