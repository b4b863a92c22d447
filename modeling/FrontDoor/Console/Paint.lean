/-!
# Painted text

Text on a terminal may be bold and have a colour. Painting is on when the environment forces it,
and leaves text as it is when it is off.
-/

namespace FrontDoor

inductive Colour where
  | red
  | green
  | yellow
  | cyan
  deriving DecidableEq, Repr

structure Look where
  bold : Bool
  colour? : Option Colour
  deriving DecidableEq, Repr

namespace Look

def strong : Look := ⟨true, none⟩

def ofColour (c : Colour) : Look := ⟨false, some c⟩

def strongOfColour (c : Colour) : Look := ⟨true, some c⟩

def code : Colour → String
  | .red => "31"
  | .green => "32"
  | .yellow => "33"
  | .cyan => "36"

def opening (l : Look) : String :=
  let codes := (if l.bold then ["1"] else []) ++ (l.colour?.map code).toList
  "\x1b[" ++ ";".intercalate codes ++ "m"

def closing : String := "\x1b[0m"

/-- A text in a look. Where the text switches looks off itself, its look is switched on again. -/
def paint (painting : Bool) (l : Look) (s : String) : String :=
  if painting then l.opening ++ s.replace closing (closing ++ l.opening) ++ closing else s

/-- Whether the environment, given by its variables, forces painting. -/
def forced (environment : String → Option String) : Bool :=
  (environment "CLICOLOR_FORCE").any (· ≠ "0")

end Look

end FrontDoor
