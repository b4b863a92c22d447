import FrontDoor.Number.Shortest
import FrontDoor.Settings.Basic
import FrontDoor.Text.Quoted
import FrontDoor.Toml.Diagnostic
import FrontDoor.Toml.Document

/-!
# Settings from TOML

Four entries at the top level set a node up; others do not matter, and what is missing keeps its
default. The first entry that does not fit is the one that is complained about.
-/

namespace FrontDoor

inductive Expected where
  | address
  | string
  | boolean
  deriving DecidableEq, Repr

/-- Why the value of an entry does not fit. -/
inductive Misfit where
  /-- A string that is no socket address. -/
  | badAddress
  | wrongType (found : Toml.Value) (expected : Expected)
  deriving DecidableEq, Repr

namespace Misfit

/-- A value in the words of a complaint. -/
def describe : Toml.Value → String
  | .string s => "string " ++ Quoted.text s
  | .integer i =>
    "integer \x60" ++ (if i < 0 then "-" else "") ++ Digits.decimal i.natAbs ++ "\x60"
  | .float x => "floating point \x60" ++ x.textWithPoint ++ "\x60"
  | .boolean b => "boolean \x60" ++ (if b then "true" else "false") ++ "\x60"
  | .array => "sequence"
  | .dateTime => "map"
  | .table => "map"

/-- What should have been, in the words of a complaint. -/
def expectation : Expected → String
  | .address => "socket address"
  | .string => "a string"
  | .boolean => "a boolean"

def message : Misfit → String
  | .badAddress => "invalid socket address syntax"
  | .wrongType found expected =>
    "invalid type: " ++ describe found ++ ", expected " ++ expectation expected

end Misfit

/-- Why a text gives no settings. -/
inductive SettingsError where
  | notToml
  | misfit (place : Toml.Place) (reason : Misfit)
  deriving DecidableEq

namespace Settings

def asAddress : Toml.Value → Except Misfit SocketAddress
  | .string s =>
    match SocketAddress.read? s with
    | some a => .ok a
    | none => .error .badAddress
  | v => .error (.wrongType v .address)

def asString : Toml.Value → Except Misfit String
  | .string s => .ok s
  | v => .error (.wrongType v .string)

def asBoolean : Toml.Value → Except Misfit Bool
  | .boolean b => .ok b
  | v => .error (.wrongType v .boolean)

/-- The settings after an entry of the given name and value. -/
def apply (s : Settings) (name : String) (v : Toml.Value) : Except Misfit Settings :=
  if name = "http_addr" then (asAddress v).map fun a => { s with httpAddr := a }
  else if name = "metrics_addr" then (asAddress v).map fun a => { s with metricsAddr := a }
  else if name = "node_id" then (asString v).map fun t => { s with nodeId := t }
  else if name = "expose_metrics" then (asBoolean v).map fun b => { s with exposeMetrics := b }
  else .ok s

/-- The settings that entries give, one after the other. -/
def ofEntries (entries : List Toml.Entry) : Except SettingsError Settings :=
  entries.foldlM (fun s e => (s.apply e.name e.value).mapError (.misfit e.place)) default

def ofText (text : String) : Except SettingsError Settings :=
  match Toml.readEntries? text.toList with
  | none => .error .notToml
  | some entries => ofEntries entries

end Settings

/-- What an error says about the text it was found in. Of a text that is not TOML only the first
words of the diagnosis are given: where the text goes wrong, the line that is shown and what was
expected there are left out. -/
def SettingsError.detail (text : String) : SettingsError → String
  | .notToml => "TOML parse error\n"
  | .misfit place reason => place.complaint text.toList reason.message

end FrontDoor
