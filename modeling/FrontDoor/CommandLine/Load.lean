import FrontDoor.CommandLine.Opt
import FrontDoor.Load.Plan
import FrontDoor.Number.Count

/-!
# The load command

Its options say whom to drive, how hard and for how long. What is not given has a default.
-/

namespace FrontDoor.CommandLine

/-- The options given to the load command. -/
structure LoadFlags where
  target : Option String
  users : Option UInt64
  /-- In seconds. -/
  duration : Option UInt64
  keyLength : Option UInt64
  /-- In milliseconds. -/
  maxWait : Option UInt64
  verbose : Bool
  deriving DecidableEq

namespace LoadFlags

def empty : LoadFlags := ⟨none, none, none, none, none, false⟩

/-- The node that is driven when none is given. -/
def defaultTarget : String := "http://127.0.0.1:11000"

/-- How many users there are by default. -/
def defaultUsers : UInt64 := 10

/-- How long users go on by default, in seconds. -/
def defaultDuration : UInt64 := 30

/-- How many characters keys have by default. -/
def defaultKeyLength : UInt64 := 4

/-- The longest pause by default, in milliseconds. -/
def defaultMaxWait : UInt64 := 1000

/-- Reads the count that an option is given. -/
def readCount (value : String) : Except ValueFault UInt64 :=
  (Count.read value.toList).mapError .notCount

/-- The option for the node that is driven. -/
def targetOption : ValueOption LoadFlags where
  spelling := ⟨some 't', "target", "Base URL of the node under test"⟩
  placeholder := "TARGET"
  default? := some defaultTarget
  mayBeEmpty := true
  given f := f.target.isSome
  accept value f := .ok { f with target := some value }

/-- The option for the number of users. -/
def usersOption : ValueOption LoadFlags where
  spelling := ⟨some 'u', "users", "Concurrent simulated users"⟩
  placeholder := "USERS"
  default? := some (Count.text defaultUsers)
  mayBeEmpty := true
  given f := f.users.isSome
  accept value f := (readCount value).map fun n => { f with users := some n }

def durationOption : ValueOption LoadFlags where
  spelling := ⟨some 'd', "duration", "Run time in seconds"⟩
  placeholder := "DURATION"
  default? := some (Count.text defaultDuration)
  mayBeEmpty := true
  given f := f.duration.isSome
  accept value f := (readCount value).map fun n => { f with duration := some n }

/-- The option for the length of keys. -/
def keyLengthOption : ValueOption LoadFlags where
  spelling := ⟨none, "key-length", "Length of generated keys"⟩
  placeholder := "KEY_LENGTH"
  default? := some (Count.text defaultKeyLength)
  mayBeEmpty := true
  given f := f.keyLength.isSome
  accept value f := (readCount value).map fun n => { f with keyLength := some n }

def maxWaitOption : ValueOption LoadFlags where
  spelling :=
    ⟨none, "max-wait-ms", "Upper bound of the random pause between tasks, in milliseconds"⟩
  placeholder := "MAX_WAIT_MS"
  default? := some (Count.text defaultMaxWait)
  mayBeEmpty := true
  given f := f.maxWait.isSome
  accept value f := (readCount value).map fun n => { f with maxWait := some n }

/-- The switch for more to be told. -/
def verboseSwitch : Switch LoadFlags where
  spelling := Spelling.verbose
  given f := f.verbose
  turnOn f := { f with verbose := true }

def options : List (Opt LoadFlags) :=
  [.value targetOption, .value usersOption, .value durationOption, .switch verboseSwitch,
    .value keyLengthOption, .value maxWaitOption, .help]

/-- How long users go on, in seconds. -/
def seconds (f : LoadFlags) : UInt64 := f.duration.getD defaultDuration

def plan (f : LoadFlags) : LoadPlan where
  target := f.target.getD defaultTarget
  users := f.users.getD defaultUsers
  duration := 1000 * f.seconds.toNat
  keyLength := f.keyLength.getD defaultKeyLength
  maxWait := f.maxWait.getD defaultMaxWait

end LoadFlags

end FrontDoor.CommandLine
