import FrontDoor.Dictionary

/-!
# Stores

A store keeps values under keys and admits nodes to a cluster. Here is what a front door may ask of
any store; what the store does with it, and when it fails, is its own affair.
-/

namespace FrontDoor

/-- Why a store refuses a call. -/
inductive StoreError where
  /-- A node that wants to join contradicts the membership. -/
  | membership (detail : String)
  /-- The store cannot serve the call now. -/
  | unavailable (detail : String)
  deriving DecidableEq, Repr

def StoreError.message : StoreError → String
  | .membership detail => "membership conflict: " ++ detail
  | .unavailable detail => "store unavailable: " ++ detail

/-- The calls of a store with states `σ`. Each yields an answer and the next state; the status is
a text for people and cannot fail. -/
structure Store (σ : Type) where
  get : σ → String → Except StoreError String × σ
  set : σ → String → String → Except StoreError Unit × σ
  delete : σ → String → Except StoreError Unit × σ
  join : σ → String → String → Except StoreError Unit × σ
  status : σ → String × σ

/-- A call, with what it was given. -/
inductive Call where
  | get (key : String)
  | set (key value : String)
  | delete (key : String)
  | join (nodeId addr : String)
  | status
  deriving DecidableEq, Repr

def Call.text : Call → String
  | .get key => "get:" ++ key
  | .set key value => "set:" ++ key ++ "=" ++ value
  | .delete key => "delete:" ++ key
  | .join nodeId addr => "join:" ++ nodeId ++ "@" ++ addr
  | .status => "status"

namespace Store

variable {σ : Type}

/-- A store that keeps, beside its state, every call it was given, the latest first. -/
def logged (s : Store σ) : Store (σ × List Call) where
  get st key := let r := s.get st.1 key; (r.1, r.2, .get key :: st.2)
  set st key value := let r := s.set st.1 key value; (r.1, r.2, .set key value :: st.2)
  delete st key := let r := s.delete st.1 key; (r.1, r.2, .delete key :: st.2)
  join st nodeId addr := let r := s.join st.1 nodeId addr; (r.1, r.2, .join nodeId addr :: st.2)
  status st := let r := s.status st.1; (r.1, r.2, .status :: st.2)

end Store

end FrontDoor
