import FrontDoor.Number.Count

/-!
# Options

An option changes the flags of a command, which are of any type. It takes a value, or is a switch,
or asks a question that ends the reading. Each option may be given once.
-/

namespace FrontDoor.CommandLine

/-- Why the value of an option is refused. -/
inductive ValueFault where
  | notAddress
  | notCount (fault : CountFault)
  deriving DecidableEq, Repr

def ValueFault.message : ValueFault → String
  | .notAddress => "invalid socket address syntax"
  | .notCount fault => fault.message

/-- How an option is spelled, and what it is for. -/
structure Spelling where
  short? : Option Char
  long : String
  about : String
  deriving DecidableEq, Repr

/-- The option for more to be told, which every command has. -/
def Spelling.verbose : Spelling := ⟨some 'v', "verbose", ""⟩

/-- What may be asked on a command line in place of a command. -/
inductive Question where
  | help
  | version
  deriving DecidableEq, Repr

/-- An option with a value: whether it was given already, and what giving it does. -/
structure ValueOption (α : Type) where
  spelling : Spelling
  placeholder : String
  default? : Option String
  /-- Whether an empty value is a value. -/
  mayBeEmpty : Bool
  given : α → Bool
  accept : String → α → Except ValueFault α

/-- An option that is on when it is given. -/
structure Switch (α : Type) where
  spelling : Spelling
  given : α → Bool
  turnOn : α → α

/-- An option of a command with flags `α`. -/
inductive Opt (α : Type) where
  | value (o : ValueOption α)
  | switch (o : Switch α)
  | question (spelling : Spelling) (asked : Question)

def Spelling.usage (s : Spelling) : String := "--" ++ s.long

/-- How an option is written with its value. -/
def ValueOption.usage {α : Type} (o : ValueOption α) : String :=
  o.spelling.usage ++ " <" ++ o.placeholder ++ ">"

namespace Opt

variable {α : Type}

def spelling : Opt α → Spelling
  | value o => o.spelling
  | switch o => o.spelling
  | question s _ => s

/-- How an option is written, with the value that it takes. -/
def usage : Opt α → String
  | value o => o.usage
  | switch o => o.spelling.usage
  | question s _ => s.usage

/-- What an option is when it is not given. -/
def default? : Opt α → Option String
  | value o => o.default?
  | _ => none

def ofLong? (opts : List (Opt α)) (name : String) : Option (Opt α) :=
  opts.find? (·.spelling.long = name)

def ofShort? (opts : List (Opt α)) (letter : Char) : Option (Opt α) :=
  opts.find? (·.spelling.short? = some letter)

def help : Opt α := .question ⟨some 'h', "help", "Print help"⟩ .help

/-- The option that asks for the version. -/
def version : Opt α := .question ⟨some 'V', "version", "Print version"⟩ .version

end Opt

end FrontDoor.CommandLine
