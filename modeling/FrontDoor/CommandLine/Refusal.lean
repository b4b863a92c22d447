import FrontDoor.CommandLine.Opt

/-!
# Refused command lines

A command line is refused for the first thing in it that is wrong, from left to right.
-/

namespace FrontDoor.CommandLine

/-- Why a command line is refused. Options are named as they are written. -/
inductive Refusal where
  /-- A word that means nothing here. -/
  | unknownArgument (word : String)
  | unknownCommand (name : String)
  | missingCommand
  /-- An option is given twice. -/
  | repeated (usage : String)
  | missingValue (usage : String)
  /-- A value is given to an option that takes none. -/
  | unwantedValue (value usage : String)
  /-- The value of an option does not fit. -/
  | badValue (value usage : String) (fault : ValueFault)
  deriving DecidableEq, Repr

def Refusal.message : Refusal → String
  | .unknownArgument word => "error: unexpected argument '" ++ word ++ "' found"
  | .unknownCommand name => "error: unrecognized subcommand '" ++ name ++ "'"
  | .missingCommand => "error: 'raftkvd' requires a subcommand but one was not provided"
  | .repeated usage => "error: the argument '" ++ usage ++ "' cannot be used multiple times"
  | .missingValue usage =>
    "error: a value is required for '" ++ usage ++ "' but none was supplied"
  | .unwantedValue value usage =>
    "error: unexpected value '" ++ value ++ "' for '" ++ usage ++ "' found; no more were expected"
  | .badValue value usage fault =>
    "error: invalid value '" ++ value ++ "' for '" ++ usage ++ "': " ++ fault.message

end FrontDoor.CommandLine
