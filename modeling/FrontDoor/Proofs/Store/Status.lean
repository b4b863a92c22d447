import FrontDoor.Proofs.Json.Writer
import FrontDoor.Proofs.Text.Decimal
import FrontDoor.Store.Memory

/-!
# The text of a status document

`toList_status`: a status is the text of an object with five members, of which the peers are an
object themselves.
-/

namespace FrontDoor.MemoryStore

open Json

/-- A string in quotes, with no more escapes than JSON needs. -/
def quotedText (s : String) : List Char := quoted (fun c => [c]) s

/-- The status document of a node with some peers and a number of keys. -/
def statusText (nodeId addr : String) (peers : List (String × String)) (keys : Nat) : List Char :=
  objectText [
    (quotedText "addr", quotedText addr),
    (quotedText "keys", (Digits.decimal keys).toList),
    (quotedText "leader", quotedText addr),
    (quotedText "node_id", quotedText nodeId),
    (quotedText "peers", stringObjectText (fun c => [c]) peers)]

theorem toList_status (s : MemoryStore) :
    s.status.toList = statusText s.nodeId s.addr s.peers s.len := by
  have hquote (t : String) : quote Utf8.encode t = Utf8.encode (quotedText t) :=
    quote_eq_encode speaks_encode t
  unfold status statusText
  simp only [hquote, asciiBytes_eq_encode (Digits.isAscii_decimal _),
    stringObject_eq_encode speaks_encode]
  rw [String.toList_ofList, ← Utf8.lossy_encode (objectText _), ← object_eq_encode]
  rfl

end FrontDoor.MemoryStore
