import FrontDoor.CommandLine.Opt

/-!
# Manual pages

A page says what a command is for, how it is called, and what may be given to it, section by
section. Within a section the explanations stand in one column.
-/

namespace FrontDoor.CommandLine

/-- A section of a page: what may be given, and what each item does. -/
structure Section where
  title : String
  rows : List (String × String)

structure Page where
  about : String
  usage : String
  sections : List Section

/-- A text filled up with blanks. -/
def padded (width : Nat) (s : String) : String :=
  s ++ String.ofList (List.replicate (width - s.length) ' ')

namespace Section

/-- The width of the column of items. -/
def width (s : Section) : Nat := s.rows.foldl (fun w row => max w row.1.length) 0

def text (s : Section) : String :=
  s.rows.foldl (fun done row => done ++ "  " ++ padded s.width row.1 ++ "  " ++ row.2 ++ "\n")
    (s.title ++ ":\n")

end Section

def Page.text (p : Page) : String :=
  p.sections.foldl (fun done s => done ++ "\n" ++ s.text)
    (p.about ++ "\n\nUsage: " ++ p.usage ++ "\n")

namespace Opt

variable {α : Type}

/-- The row of an option on a page. -/
def row (o : Opt α) : String × String :=
  let short := match o.spelling.short? with
    | some letter => String.ofList ['-', letter, ',', ' ']
    | none => "    "
  let byDefault := match o.default? with
    | some text => " [default: " ++ text ++ "]"
    | none => ""
  (short ++ o.usage, o.spelling.about ++ byDefault)

def manual (opts : List (Opt α)) : Section := ⟨"Options", opts.map row⟩

end Opt

end FrontDoor.CommandLine
