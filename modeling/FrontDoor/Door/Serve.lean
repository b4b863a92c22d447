import FrontDoor.Door.Join
import FrontDoor.Door.Key
import FrontDoor.Route

/-!
# Serving requests

Every request goes to the endpoint that its decoded path selects. Nothing depends on the method but
what the key endpoint does with it.
-/

namespace FrontDoor.Door

variable {σ : Type}

/-- Answers with the status of the store. -/
def handleStatus (s : Store σ) (door : Door σ) : Response × Door σ :=
  let (text, st) := s.status door.store
  (.ofContent statusOk plainText (Utf8.encode text.toList), { door with store := st })

/-- Answers a request that takes `elapsed` nanoseconds. -/
def serve (s : Store σ) (order : EntryOrder) (door : Door σ) (request : Request) (elapsed : Nat) :
    Response × Door σ :=
  let path := Route.readPath request.path
  let (response, door) := match Route.resolve path.text with
    | .key =>
      handleKey s order door request.method (String.ofList (Route.keyOf path)) request.body elapsed
    | .join => handleJoin s door request.body
    | .status => handleStatus s door
    | .unknown => (.empty notFound, door)
  (response.withLength, door)

end FrontDoor.Door
