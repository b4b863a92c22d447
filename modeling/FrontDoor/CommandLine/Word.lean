/-!
# Words of a command line

What a word may be is seen by its dashes alone: two of them end the options, two in front of more
begin a long option, one in front of more begins a cluster of short ones. A dash alone is plain.
-/

namespace FrontDoor.CommandLine

inductive Word where
  /-- Two dashes: no options follow. -/
  | endOfOptions
  /-- A long option, with the value after the first equals sign. -/
  | long (name : String) (value? : Option String)
  /-- Short options in one word; the last may be followed by its value. -/
  | cluster (letters : List Char)
  | plain (text : String)
  deriving DecidableEq, Repr

namespace Word

/-- A text before its first equals sign, and after it when there is one. -/
def splitValue (cs : List Char) : String × Option String :=
  match cs.span (· ≠ '=') with
  | (name, []) => (String.ofList name, none)
  | (name, _ :: value) => (String.ofList name, some (String.ofList value))

def ofString (s : String) : Word :=
  match s.toList with
  | ['-', '-'] => .endOfOptions
  | '-' :: '-' :: cs => let (name, value?) := splitValue cs; .long name value?
  | ['-'] => .plain s
  | '-' :: letters => .cluster letters
  | _ => .plain s

end Word

end FrontDoor.CommandLine
