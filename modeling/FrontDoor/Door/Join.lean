import FrontDoor.Door.Basic
import FrontDoor.Json.StringMap

/-!
# The join endpoint

A node asks to be admitted with a body of exactly two entries, its id and its address. The method
does not matter and nothing is recorded.
-/

namespace FrontDoor.Door

variable {σ : Type}

/-- The id and the address in a join body: the only two entries. -/
def joinFields? (m : StringMap) : Option (String × String) :=
  if m.size = 2 then
    match m.get? "id", m.get? "addr" with
    | some nodeId, some addr => some (nodeId, addr)
    | _, _ => none
  else none

def handleJoin (s : Store σ) (door : Door σ) (body : Bytes) : Response × Door σ :=
  match (StringMap.read? body).bind joinFields? with
  | none => (.empty badRequest, door)
  | some (nodeId, addr) =>
    match s.join door.store nodeId addr with
    | (.ok (), st) => (.empty statusOk, { door with store := st })
    | (.error _, st) => (.empty internalError, { door with store := st })

end FrontDoor.Door
