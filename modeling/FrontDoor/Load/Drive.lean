import FrontDoor.Door.Serve
import FrontDoor.Load.Report

/-!
# Driving a node

Users perform their tasks one request at a time, in whatever order the node gets to serve them. How
a request travels is left open: it is answered with a status or gets lost.
-/

namespace FrontDoor

/-- Sends a request to something with states `σ`. -/
abbrev Transport (σ : Type) := σ → Request → Option Nat × σ

namespace Transport

variable {σ : Type}

/-- Every request is lost. -/
def lost : Transport σ := fun st _ => (none, st)

/-- Every request reaches a door, which takes no time to answer it. -/
def toDoor (s : Store σ) (order : EntryOrder) : Transport (Door σ) := fun door request =>
  let (response, door) := door.serve s order request 0
  (some response.status, door)

end Transport

/-- A task of a user, in the order in which tasks are served. -/
structure Turn where
  user : Nat
  task : LoadTask
  deriving DecidableEq, Repr

namespace LoadPlan

variable {σ : Type}

/-- Performs a task. A task without a request is lost. -/
def perform (p : LoadPlan) (send : Transport σ) (st : σ) (t : LoadTask) : Performed × σ :=
  match p.request? t with
  | none => (⟨t.kind, none⟩, st)
  | some request =>
    let (status?, st) := send st request
    (⟨t.kind, status?⟩, st)

/-- Performs tasks one after the other. -/
def performAll (p : LoadPlan) (send : Transport σ) : σ → List Turn → List (Nat × Performed) × σ
  | st, [] => ([], st)
  | st, turn :: rest =>
    let (done, st) := p.perform send st turn.task
    let (others, st) := performAll p send st rest
    ((turn.user, done) :: others, st)

def reportOf (done : List (Nat × Performed)) (user : Nat) : LoadReport :=
  .ofTasks ((done.filter (·.1 = user)).map (·.2))

/-- The report of all users after they performed their tasks. -/
def drive (p : LoadPlan) (send : Transport σ) (st : σ) (turns : List Turn) : LoadReport × σ :=
  let (done, st) := p.performAll send st turns
  (.merge ((List.range p.users.toNat).map (reportOf done)), st)

end LoadPlan

end FrontDoor
