import FrontDoor.Metrics.Registry
import FrontDoor.Settings.Document
import FrontDoor.SystemError
import FrontDoor.Text.Utf8

/-!
# What can go wrong with a node

An error keeps its cause; its text names the kind of trouble and ends with the text of the cause.
-/

namespace FrontDoor

/-- What goes wrong when a node is set up or started. -/
inductive ServiceError where
  /-- The service listens already. -/
  | alreadyStarted (addr : SocketAddress)
  | metrics (e : MetricsError)
  /-- The settings in a text, or in the file of the given path, are refused. -/
  | settings (path : Option String) (text : String) (e : SettingsError)
  | system (e : SystemError)
  deriving DecidableEq

namespace ServiceError

def message : ServiceError → String
  | .alreadyStarted addr => "service already started on " ++ addr.text
  | .metrics e => "metrics error: " ++ e.message
  | .settings none text e => "configuration error: " ++ e.detail text
  | .settings (some path) text e => "configuration error: " ++ path ++ ": " ++ e.detail text
  | .system e => "I/O error: " ++ e.message

/-- The texts of the causes behind an error, the nearest first. -/
def causes : ServiceError → List String
  | .metrics e => [e.message, e.cause]
  | .system e => [e.message]
  | _ => []

end ServiceError

namespace Settings

def parse (text : String) : Except ServiceError Settings :=
  (ofText text).mapError (.settings none text)

/-- The settings in the file of a path, when reading it yields `file`. -/
def load (path : String) (file : Except SystemError Bytes) : Except ServiceError Settings :=
  match file with
  | .error e => .error (.system e)
  | .ok bytes =>
    match Utf8.decode? bytes with
    | none => .error (.system .notUtf8)
    | some cs =>
      let text := String.ofList cs
      (ofText text).mapError (.settings (some path) text)

end Settings

end FrontDoor
