import FrontDoor.Address.Table
import FrontDoor.Service.Error

/-!
# Services

A service listens at an address from its start until it is closed. It may be started again then.
What goes wrong at a start changes nothing. While it listens a service keeps two things, the address
that it tells and the task that serves there; the address is in use for as long as the task runs.
-/

namespace FrontDoor

inductive Listener where
  /-- The service of a number. -/
  | service (number : Nat)
  /-- The scrape endpoint. -/
  | scrape
  /-- A program that is none of ours. -/
  | stranger
  deriving DecidableEq, Repr

/-- A task that serves what comes in at an address. The listener there ends with it. -/
structure ServingTask where
  address : SocketAddress
  deriving DecidableEq

/-- A service: its number, the address that it asks for, where it listens while it does, and the
task that serves. -/
structure Service where
  number : Nat
  requested : SocketAddress
  listening? : Option SocketAddress
  task? : Option ServingTask
  deriving DecidableEq

namespace Service

def new (number : Nat) (requested : SocketAddress) : Service := ⟨number, requested, none, none⟩

def start (s : Service) (t : AddressTable Listener) :
    Except ServiceError Unit × Service × AddressTable Listener :=
  match s.listening? with
  | some a => (.error (.alreadyStarted a), s, t)
  | none =>
    match t.bind s.requested (.service s.number) with
    | (.error e, t) => (.error (.system e), s, t)
    | (.ok a, t) => (.ok (), { s with listening? := some a, task? := some ⟨a⟩ }, t)

/-- Ends the task that serves, if there is one. -/
def endTask (s : Service) (t : AddressTable Listener) : AddressTable Listener :=
  match s.task? with
  | some task => t.release task.address
  | none => t

def close (s : Service) (t : AddressTable Listener) : Service × AddressTable Listener :=
  ({ s with listening? := none, task? := none }, s.endTask t)

end Service

namespace Scrape

/-- Starts the scrape endpoint; yields where it listens. -/
def bind (t : AddressTable Listener) (a : SocketAddress) :
    Except MetricsError SocketAddress × AddressTable Listener :=
  let (r, t) := t.bind a .scrape
  (r.mapError .system, t)

end Scrape

end FrontDoor
