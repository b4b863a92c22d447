import FrontDoor.Http.Message
import FrontDoor.Metrics.Requests

/-!
# Recording a request

A recorder accompanies one request to the key endpoint. It counts every failure that it is told of,
answers with the status of the first, and records one latency when it ends.
-/

namespace FrontDoor

/-- The endpoint under which requests are recorded. -/
def keyEndpoint : String := "/key"

/-- A request that is being answered: its method, and the status of its first failure. -/
structure Recorder where
  method : Method
  failure? : Option Nat
  deriving DecidableEq

namespace Recorder

/-- A recorder for a request that has just begun. -/
def start (method : Method) : Recorder := ⟨method, none⟩

/-- Counts a failure; the first one gives the status. -/
def fail (r : Recorder) (m : RequestMetrics) (status : Nat) : Recorder × RequestMetrics :=
  ({ r with failure? := r.failure?.or (some status) },
   m.countError keyEndpoint r.method.name status)

/-- Counts some failures, one after the other. -/
def failAll (r : Recorder) (m : RequestMetrics) (statuses : List Nat) : Recorder × RequestMetrics :=
  statuses.foldl (fun s status => s.1.fail s.2 status) (r, m)

def status (r : Recorder) : Nat := r.failure?.getD statusOk

/-- The response that has only the status. -/
def respond (r : Recorder) : Response := .empty r.status

/-- A response with the recorder's status in place of its own. -/
def respondWith (r : Recorder) (response : Response) : Response :=
  { response with status := r.status }

/-- Ends the recorder after a number of nanoseconds. -/
def finish (r : Recorder) (m : RequestMetrics) (elapsed : Nat) : RequestMetrics :=
  m.observeLatency keyEndpoint r.method.name (.ofNat elapsed)

end Recorder

end FrontDoor
