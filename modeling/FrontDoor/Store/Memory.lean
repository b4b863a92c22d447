import FrontDoor.Json.Writer
import FrontDoor.Store.Basic
import FrontDoor.Text.Quoted

/-!
# The store in memory

One node that is its own leader. Values are kept in a dictionary, and the nodes that joined in
another; the two never touch. The membership binds ids to addresses one to one: a node is admitted
when its id and its address are both free, or when exactly this pair is known already.

A join that crashes while it holds the membership leaves it poisoned. From then on no join is
served and no peer is seen, while keys go on as before.
-/

namespace FrontDoor

/-- A node with its keys and its peers. -/
structure MemoryStore where
  nodeId : String
  addr : String
  data : Dictionary String
  /-- The addresses of the nodes that joined, by their ids. -/
  members : Dictionary String
  poisoned : Bool
  deriving DecidableEq

namespace MemoryStore

def new (nodeId addr : String) : MemoryStore := ⟨nodeId, addr, .empty, .empty, false⟩

def len (s : MemoryStore) : Nat := s.data.size

def isEmpty (s : MemoryStore) : Bool := s.len == 0

/-- The nodes that joined, by id; none can be seen in a poisoned membership. -/
def peers (s : MemoryStore) : List (String × String) :=
  if s.poisoned then [] else s.members.toList

/-- The value of a key; a key without one reads as the empty text. -/
def get (s : MemoryStore) (key : String) : String := (s.data.get? key).getD ""

def set (s : MemoryStore) (key value : String) : MemoryStore :=
  { s with data := s.data.insert key value }

def delete (s : MemoryStore) (key : String) : MemoryStore :=
  { s with data := s.data.erase key }

/-! ## Joining -/

/-- The refusal of a poisoned membership. -/
def poisonedError : StoreError :=
  .unavailable "lock poisoned: poisoned lock: another task failed inside"

/-- The refusal of a node for the sake of another one, which holds its id or its address. -/
def conflict (nodeId addr role heldId heldAddr : String) : StoreError :=
  .membership (nodeId ++ " at " ++ addr ++ " conflicts with " ++ role ++ " " ++ heldId ++ " at "
    ++ heldAddr)

/-- What a sound membership says of a node that wants to join: that it is new, that it is known
already, or why it is refused. The local node comes first, and of the others the first in the order
of ids that holds the id or the address. -/
def admission (s : MemoryStore) (nodeId addr : String) : Except StoreError Bool :=
  if nodeId = s.nodeId ∨ addr = s.addr then
    if nodeId = s.nodeId ∧ addr = s.addr then .ok false
    else .error (conflict nodeId addr "local node" s.nodeId s.addr)
  else
    match s.members.toList.find? fun m => m.1 = nodeId || m.2 = addr with
    | none => .ok true
    | some m =>
      if m.1 = nodeId ∧ m.2 = addr then .ok false
      else .error (conflict nodeId addr "member" m.1 m.2)

/-- Admits a node, or says why not. -/
def join (s : MemoryStore) (nodeId addr : String) : Except StoreError Unit × MemoryStore :=
  if s.poisoned then (.error poisonedError, s)
  else
    match s.admission nodeId addr with
    | .error e => (.error e, s)
    | .ok isNew =>
      (.ok (), if isNew then { s with members := s.members.insert nodeId addr } else s)

/-- How a join ends that crashes as soon as it reports anything. -/
inductive CrashOutcome where
  | refused (e : StoreError)
  | crashed
  deriving DecidableEq

/-- A join that crashes when it reports success. It holds the membership then and poisons it; a new
node is a member by that time. A refusal reports nothing. -/
def crashJoin (s : MemoryStore) (nodeId addr : String) : CrashOutcome × MemoryStore :=
  match s.join nodeId addr with
  | (.error e, s') => (.refused e, s')
  | (.ok (), s') => (.crashed, { s' with poisoned := true })

/-! ## Descriptions -/

/-- The status document: who the node is, its peers and how many keys it has, by member name. -/
def status (s : MemoryStore) : String :=
  let text := Json.quote Utf8.encode
  let member (name : String) (value : Bytes) := (text name, value)
  String.ofList <| Utf8.lossy <| Json.object [
    member "addr" (text s.addr),
    member "keys" (Json.asciiBytes (Digits.decimal s.len)),
    member "leader" (text s.addr),
    member "node_id" (text s.nodeId),
    member "peers" (Json.stringObject Utf8.encode s.peers)]

def describe (s : MemoryStore) : String :=
  "InMemoryStore \x7b node_id: " ++ Quoted.text s.nodeId ++ ", addr: " ++ Quoted.text s.addr
    ++ ", key_count: " ++ Digits.decimal s.len ++ " \x7d"

def store : Store MemoryStore where
  get s key := (.ok (s.get key), s)
  set s key value := (.ok (), s.set key value)
  delete s key := (.ok (), s.delete key)
  join := join
  status s := (s.status, s)

/-! ## Runs -/

inductive Operation where
  | get (key : String)
  | set (key value : String)
  | delete (key : String)
  | join (nodeId addr : String)
  | crashJoin (nodeId addr : String)
  | status
  | describe
  | nodeId
  deriving DecidableEq

inductive Answer where
  | value (v : String)
  | joined (r : Except StoreError Unit)
  | crash (r : CrashOutcome)
  | text (t : String)
  | done

def perform (s : MemoryStore) : Operation → Answer × MemoryStore
  | .get key => (.value (s.get key), s)
  | .set key value => (.done, s.set key value)
  | .delete key => (.done, s.delete key)
  | .join nodeId addr => let r := s.join nodeId addr; (.joined r.1, r.2)
  | .crashJoin nodeId addr => let r := s.crashJoin nodeId addr; (.crash r.1, r.2)
  | .status => (.text s.status, s)
  | .describe => (.text s.describe, s)
  | .nodeId => (.text s.nodeId, s)

end MemoryStore

end FrontDoor
