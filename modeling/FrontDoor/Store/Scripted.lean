import FrontDoor.Store.Basic

/-!
# A scripted store

A store for trying out a front door: it keeps values, writes down the calls it is given and fails
those that its script names.
-/

namespace FrontDoor

/-- The calls that fail: all of a kind, or the setting of one key. -/
structure Faults where
  get : Bool
  set : Bool
  delete : Bool
  join : Bool
  setKey : Option String

def Faults.none : Faults := ⟨false, false, false, false, .none⟩

/-- A store with its script and what it has seen. -/
structure ScriptedStore where
  statusText : String
  data : Dictionary String
  faults : Faults
  /-- The calls since the last report, the latest first; a set that failed is not among them. -/
  calls : List Call
  /-- The keys of the sets that failed since the last report, the latest first. -/
  failedSets : List String

namespace ScriptedStore

/-- A store with a status text and some entries, of which the last of a key counts. -/
def new (statusText : String) (entries : List (String × String)) (faults : Faults) :
    ScriptedStore :=
  ⟨statusText, .ofList entries, faults, [], []⟩

def failure : StoreError := .unavailable "scripted"

def log (s : ScriptedStore) (c : Call) : ScriptedStore := { s with calls := c :: s.calls }

def failsToSet (s : ScriptedStore) (key : String) : Bool :=
  s.faults.set || s.faults.setKey == some key

/-- The calls of a scripted store. Failing calls are written down as the others are, sets apart. -/
def store : Store ScriptedStore where
  get s key :=
    (if s.faults.get then .error failure else .ok ((s.data.get? key).getD ""), s.log (.get key))
  set s key value :=
    if s.failsToSet key then (.error failure, { s with failedSets := key :: s.failedSets })
    else (.ok (), { s with data := s.data.insert key value }.log (.set key value))
  delete s key :=
    if s.faults.delete then (.error failure, s.log (.delete key))
    else (.ok (), { s with data := s.data.erase key }.log (.delete key))
  join s nodeId addr :=
    (if s.faults.join then .error failure else .ok (), s.log (.join nodeId addr))
  status s := (s.statusText, s.log .status)

/-- The calls since the last report, sorted by their texts, and the store that begins a new one.
When a set failed, what else was done depends on the order of the entries, and only the failure is
reported. -/
def report (s : ScriptedStore) : List String × ScriptedStore :=
  (match s.failedSets with
   | [] => (s.calls.map Call.text).mergeSort
   | key :: _ => ["failed set:" ++ if s.faults.set then "*" else key],
   { s with calls := [], failedSets := [] })

end ScriptedStore

end FrontDoor
