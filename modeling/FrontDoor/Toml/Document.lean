import FrontDoor.Toml.Value

/-!
# TOML documents

A document is read as a list of statements, and these are then carried out one after the other. What
is kept are the entries at the top level, in the order in which they came to be, each with its value
and its place. A table that gets its header after another one implied it moves to the end.
-/

namespace FrontDoor.Toml

/-- A line of a document that says something. -/
inductive Statement where
  /-- A key with its value. -/
  | pair (key : Key) (value : Value) (place : Place)
  /-- The header of a table. -/
  | header (key : Key) (place : Place)
  /-- The header of an element of an array of tables. -/
  | element (key : Key) (place : Place)
  deriving DecidableEq

/-- A header behind its opening brackets; `close` takes off the closing ones. -/
def readHeader? (close : List Char → Option (List Char)) (cs : List Char) :
    Option (Key × List Char) := do
  let (key, rest) ← readKey? cs
  let rest ← close rest
  some (key, rest)

/-- A statement, and what follows its line. -/
def readStatement? (cs : List Char) : Option (Statement × List Char) :=
  match cs with
  | '[' :: '[' :: rest => do
    let (key, stop) ← readHeader? (fun cs => (expectChar? ']' cs).bind (expectChar? ']')) rest
    let after ← endLine? stop
    some (.element key ⟨cs, stop⟩, after)
  | '[' :: rest => do
    let (key, stop) ← readHeader? (expectChar? ']') rest
    let after ← endLine? stop
    some (.header key ⟨cs, stop⟩, after)
  | _ => do
    let (key, rest) ← readKey? cs
    let rest ← expectChar? '=' rest
    let start := skipBlanks rest
    let (value, stop) ← readValue? maxDepth start
    let after ← endLine? stop
    some (.pair key value ⟨start, stop⟩, after)

/-- The statements of a text, behind those in `done`, the latest first. Each takes off some of the
text, so that its length is fuel enough. -/
def readStatementsOnto (done : List Statement) : Nat → List Char → Option (List Statement)
  | 0, cs => if cs.isEmpty then some done.reverse else none
  | fuel + 1, cs =>
    match skipBlanks cs with
    | [] => some done.reverse
    | c :: rest =>
      match newline? (c :: rest) with
      | some after => readStatementsOnto done fuel after
      | none =>
        if c = '#' then
          match endLine? (c :: rest) with
          | some after => readStatementsOnto done fuel after
          | none => none
        else
          match readStatement? (c :: rest) with
          | some (s, after) => readStatementsOnto (s :: done) fuel after
          | none => none

/-- A text without the byte order mark that may stand in front. -/
def skipMark : List Char → List Char
  | '\uFEFF' :: rest => rest
  | text => text

/-- The statements of a text behind its byte order mark. -/
def readStatements? (text : List Char) : Option (List Statement) :=
  readStatementsOnto [] (skipMark text).length (skipMark text)

structure Entry where
  name : String
  value : Value
  place : Place
  deriving DecidableEq

/-- What the statements so far have built: the names they gave, the table that is open, the name of
the top-level entry that this table is, if it is one, and the entries. -/
structure Document where
  names : Names
  table : TablePath
  openEntry : Option String
  entries : List Entry

namespace Document

def start : Document := ⟨[], [], none, []⟩

/-- Whether there is an entry of a name. -/
def hasEntry (entries : List Entry) (name : String) : Bool := entries.any (·.name == name)

/-- Adds an entry unless there is one of its name. -/
def addEntry (entries : List Entry) (e : Entry) : List Entry :=
  if hasEntry entries e.name then entries else entries ++ [e]

/-- Adds an entry, in place of any of its name. -/
def moveEntry (entries : List Entry) (e : Entry) : List Entry :=
  entries.filter (·.name != e.name) ++ [e]

/-- Lets an entry end later. -/
def extendEntry (entries : List Entry) (name : String) (stop : List Char) : List Entry :=
  entries.map fun e => if e.name = name then { e with place.stop := stop } else e

/-- The entries when a key leads into a table: the first name on the way is one. -/
def touchEntry (entries : List Entry) (first : KeyPart) : List Entry :=
  addEntry entries ⟨first.name, .table, first.place⟩

def step (d : Document) : Statement → Option Document
  | .pair key value place => do
    let names ← d.names.addValue d.table key.path key.last
    let entries := match d.table, d.openEntry with
      | [], _ =>
        if key.path.isEmpty then d.entries ++ [⟨key.last, value, place⟩]
        else touchEntry d.entries key.first
      | _, some name => extendEntry d.entries name place.stop
      | _, none => d.entries
    some { d with names, entries }
  | .header key place => do
    let (names, table) ← d.names.openTable key.path key.last
    if key.path.isEmpty then
      some ⟨names, table, some key.last, moveEntry d.entries ⟨key.last, .table, place⟩⟩
    else some ⟨names, table, none, touchEntry d.entries key.first⟩
  | .element key place => do
    let (names, table) ← d.names.openElement key.path key.last
    if key.path.isEmpty then
      let entries := addEntry d.entries ⟨key.last, .array, place⟩
      some ⟨names, table, some key.last, extendEntry entries key.last place.stop⟩
    else some ⟨names, table, none, touchEntry d.entries key.first⟩

def ofStatements? (statements : List Statement) : Option Document :=
  statements.foldlM step start

end Document

/-- The entries at the top level of a text, if it is TOML. What is TOML is what this reader takes,
and it has limits: a key has at most `maxKeyParts` parts, arrays and tables stand at most `maxDepth`
deep in each other, integers have 64 bits, and a float may be too large only when it is negative.
Beyond them a text is refused like one that is no TOML at all. -/
def readEntries? (text : List Char) : Option (List Entry) := do
  let statements ← readStatements? text
  let document ← Document.ofStatements? statements
  some document.entries

end FrontDoor.Toml
