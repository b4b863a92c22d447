import FrontDoor.Door.Basic
import FrontDoor.Json.HtmlSafe
import FrontDoor.Json.StringMap

/-!
# The key endpoint

Under the key prefix, GET reads the key of the path, POST sets every entry of its body and DELETE
removes the key of the path. What goes wrong is a list of statuses, in the order in which it goes
wrong; the first of them is the status of the response.
-/

namespace FrontDoor.Door

variable {σ : Type}

/-- What became of a request: its failures, the document it is answered with, and the store. -/
structure Outcome (σ : Type) where
  failures : List Nat
  document : Option Bytes
  store : σ

/-- Reads a key. A missing key is a failure, and is read all the same. -/
def readKey (s : Store σ) (st : σ) (key : String) : Outcome σ :=
  let missing := if key = "" then [badRequest] else []
  match s.get st key with
  | (.ok value, st') => ⟨missing, some (Json.HtmlSafe.encode [(key, value)]), st'⟩
  | (.error _, st') => ⟨missing ++ [internalError], none, st'⟩

/-- Sets entries until one fails; tells whether all were set. -/
def setAll (s : Store σ) : σ → List (String × String) → Bool × σ
  | st, [] => (true, st)
  | st, (key, value) :: rest =>
    match s.set st key value with
    | (.ok (), st') => setAll s st' rest
    | (.error _, st') => (false, st')

/-- Sets the entries of a body, each name once. A body that is no string map touches nothing. -/
def writeKeys (s : Store σ) (order : EntryOrder) (st : σ) (body : Bytes) : Outcome σ :=
  match StringMap.read? body with
  | none => ⟨[badRequest], none, st⟩
  | some m =>
    let (all, st') := setAll s st (order.arrange m)
    ⟨if all then [] else [internalError], none, st'⟩

/-- Removes a key; a missing key is not asked for. -/
def removeKey (s : Store σ) (st : σ) (key : String) : Outcome σ :=
  if key = "" then ⟨[badRequest], none, st⟩
  else
    match s.delete st key with
    | (.ok (), st') => ⟨[], none, st'⟩
    | (.error _, st') => ⟨[internalError], none, st'⟩

/-- What becomes of a request to the key endpoint. -/
def keyOutcome (s : Store σ) (order : EntryOrder) (st : σ) (method : Method) (key : String)
    (body : Bytes) : Outcome σ :=
  if method.name = "GET" then readKey s st key
  else if method.name = "POST" then writeKeys s order st body
  else if method.name = "DELETE" then removeKey s st key
  else ⟨[methodNotAllowed], none, st⟩

/-- Answers a request to the key endpoint that takes `elapsed` nanoseconds, and records it. -/
def handleKey (s : Store σ) (order : EntryOrder) (door : Door σ) (method : Method) (key : String)
    (body : Bytes) (elapsed : Nat) : Response × Door σ :=
  let outcome := keyOutcome s order door.store method key body
  let (recorder, metrics) := (Recorder.start method).failAll door.metrics outcome.failures
  let response := match outcome.document with
    | some json => recorder.respondWith (.ofContent statusOk "application/json" json)
    | none => recorder.respond
  (response, ⟨outcome.store, recorder.finish metrics elapsed⟩)

end FrontDoor.Door
