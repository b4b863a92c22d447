import FrontDoor.Http.Message
import FrontDoor.Load.Task

/-!
# Load reports

What became of a task is the status of the response, or that there was none. A report counts the
tasks of either kind by what became of them; reports add up. The counts have no greatest value:
where they are kept in 64 bits they are the same below `2 ^ 64` tasks, and no run comes near that
many.
-/

namespace FrontDoor

/-- What became of the tasks of one kind. -/
structure Tally where
  /-- Statuses from 200 to 299. -/
  ok : Nat
  /-- Statuses that are neither successes nor errors of the server. -/
  clientErrors : Nat
  /-- Statuses from 500 to 599. -/
  serverErrors : Nat
  /-- Requests without a response. -/
  transportErrors : Nat
  deriving DecidableEq, Repr

namespace Tally

def zero : Tally := ⟨0, 0, 0, 0⟩

def record (t : Tally) : Option Nat → Tally
  | none => { t with transportErrors := t.transportErrors + 1 }
  | some status =>
    if status / 100 = 2 then { t with ok := t.ok + 1 }
    else if status / 100 = 5 then { t with serverErrors := t.serverErrors + 1 }
    else { t with clientErrors := t.clientErrors + 1 }

def total (t : Tally) : Nat := t.ok + t.clientErrors + t.serverErrors + t.transportErrors

/-- The tasks of two tallies together. -/
def add (s t : Tally) : Tally where
  ok := s.ok + t.ok
  clientErrors := s.clientErrors + t.clientErrors
  serverErrors := s.serverErrors + t.serverErrors
  transportErrors := s.transportErrors + t.transportErrors

instance : Add Tally := ⟨add⟩

end Tally

/-- A task that was performed: its kind, and the status of the response if there was one. -/
structure Performed where
  kind : TaskKind
  status? : Option Nat
  deriving DecidableEq, Repr

structure LoadReport where
  writes : Tally
  reads : Tally
  deriving DecidableEq, Repr

namespace LoadReport

def zero : LoadReport := ⟨.zero, .zero⟩

def record (r : LoadReport) (p : Performed) : LoadReport :=
  match p.kind with
  | .write => { r with writes := r.writes.record p.status? }
  | .read => { r with reads := r.reads.record p.status? }

def add (r s : LoadReport) : LoadReport := ⟨r.writes + s.writes, r.reads + s.reads⟩

instance : Add LoadReport := ⟨add⟩

def ofTasks (tasks : List Performed) : LoadReport := tasks.foldl record zero

def merge (reports : List LoadReport) : LoadReport := reports.foldl (· + ·) zero

end LoadReport

end FrontDoor
