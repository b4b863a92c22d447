import FrontDoor.CommandLine.Refusal
import FrontDoor.CommandLine.Word

/-!
# Reading the words of a command

Words are read from left to right. A value in a word of its own is looked at only when the next
option comes up, or at the end; so a word that means nothing is refused before a bad value in front
of it, and a bad value before everything else.
-/

namespace FrontDoor.CommandLine

/-- Why reading ends before the last word. -/
inductive Stop where
  | asked (q : Question)
  | refused (r : Refusal)
  deriving DecidableEq

/-- What has been read of a command: its flags so far, the option that waits for its value or whose
value has not been looked at, and whether options have ended. -/
structure Reading (α : Type) where
  flags : α
  pending? : Option (ValueOption α × Option String)
  ended : Bool

variable {α : Type}

/-- The flags after an option with the given value. -/
def ValueOption.give (o : ValueOption α) (value? : Option String) (flags : α) :
    Except Refusal α :=
  match value? with
  | none => .error (.missingValue o.usage)
  | some value =>
    if o.given flags then .error (.repeated o.usage)
    else if value = "" ∧ !o.mayBeEmpty then .error (.missingValue o.usage)
    else (o.accept value flags).mapError (.badValue value o.usage)

def Switch.give (o : Switch α) (flags : α) : Except Refusal α :=
  if o.given flags then .error (.repeated o.spelling.usage) else .ok (o.turnOn flags)

namespace Reading

def start (flags : α) : Reading α := ⟨flags, none, false⟩

/-- The flags, once the value that was put off is looked at. -/
def settled (r : Reading α) : Except Refusal α :=
  match r.pending? with
  | none => .ok r.flags
  | some (o, value?) => o.give value? r.flags

/-- Takes an option with a value, which may come with the next word. -/
def takeValue (r : Reading α) (o : ValueOption α) (value? : Option String) :
    Except Refusal (Reading α) := do
  let flags ← r.settled
  match value? with
  | none => return { r with flags := flags, pending? := some (o, none) }
  | some value =>
    let flags ← o.give (some value) flags
    return { r with flags := flags, pending? := none }

def takeSwitch (r : Reading α) (o : Switch α) : Except Refusal (Reading α) := do
  let flags ← o.give (← r.settled)
  return { r with flags := flags, pending? := none }

/-- Ends with a question, unless something in front of it is wrong. -/
def ask (r : Reading α) (q : Question) : Stop :=
  match r.settled with
  | .ok _ => .asked q
  | .error e => .refused e

/-- Takes an option with the value that stands in the same word. -/
def takeOption (r : Reading α) (o : Opt α) (value? : Option String) : Except Stop (Reading α) :=
  match o, value? with
  | .value o, _ => (r.takeValue o value?).mapError .refused
  | .switch o, none => (r.takeSwitch o).mapError .refused
  | .question _ q, none => .error (r.ask q)
  | o, some value => .error (.refused (.unwantedValue value o.usage))

/-- The value in what follows the letter of an option. -/
def gluedValue? : List Char → Option String
  | [] => none
  | '=' :: value => some (String.ofList value)
  | value => some (String.ofList value)

/-- Takes the options of a cluster. The first one with a value takes the rest of the word. -/
def takeCluster (opts : List (Opt α)) : Reading α → List Char → Except Stop (Reading α)
  | r, [] => .ok r
  | r, letter :: rest =>
    match Opt.ofShort? opts letter with
    | none => .error (.refused (.unknownArgument (String.ofList ['-', letter])))
    | some (.value o) => r.takeOption (.value o) (gluedValue? rest)
    | some o => do takeCluster opts (← r.takeOption o none) rest

/-- Takes a word that is no option: the value of the option that waits for one. -/
def takePlain (stray : String → Refusal) (r : Reading α) (text : String) :
    Except Stop (Reading α) :=
  match r.pending? with
  | some (o, none) => .ok { r with pending? := some (o, some text) }
  | _ => .error (.refused (stray text))

/-- Takes one word. After the end of options nothing is wanted any more. -/
def take (opts : List (Opt α)) (stray : String → Refusal) (r : Reading α) (text : String) :
    Except Stop (Reading α) :=
  if r.ended then .error (.refused (stray text))
  else
    match Word.ofString text with
    | .endOfOptions => .ok { r with ended := true }
    | .long name value? =>
      match Opt.ofLong? opts name with
      | none => .error (.refused (.unknownArgument ("--" ++ name)))
      | some o => r.takeOption o value?
    | .cluster letters => takeCluster opts r letters
    | .plain text => r.takePlain stray text

def readAll (opts : List (Opt α)) (flags : α) (words : List String) : Except Stop α := do
  let r ← words.foldlM (take opts .unknownArgument) (start flags)
  r.settled.mapError .refused

end Reading

end FrontDoor.CommandLine
