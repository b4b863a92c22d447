import FrontDoor.Bytes

/-!
# Refusals of the system

What the system says when a file cannot be read or an address cannot be bound.
-/

namespace FrontDoor

/-- Why the system refuses. -/
inductive SystemError where
  | notFound
  | notADirectory
  | isADirectory
  | addressInUse
  /-- A text file that is not UTF-8. -/
  | notUtf8
  /-- Any other refusal, in the system's words. -/
  | other (text : String)
  deriving DecidableEq, Repr

def SystemError.message : SystemError → String
  | .notFound => "No such file or directory (os error 2)"
  | .notADirectory => "Not a directory (os error 20)"
  | .isADirectory => "Is a directory (os error 21)"
  | .addressInUse => "Address already in use (os error 98)"
  | .notUtf8 => "stream did not contain valid UTF-8"
  | .other text => text

end FrontDoor
