/-!
# Load plans
-/

namespace FrontDoor

/-- What the load generator is to do. -/
structure LoadPlan where
  /-- The address of the node, as a URL. -/
  target : String
  users : UInt64
  /-- How long users go on, in milliseconds. -/
  duration : Nat
  /-- How many characters the keys have. -/
  keyLength : UInt64
  /-- The longest pause between two tasks of a user, in milliseconds. -/
  maxWait : UInt64
  deriving DecidableEq, Repr

end FrontDoor
