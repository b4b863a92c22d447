import FrontDoor.Recorder
import FrontDoor.Store.Basic

/-!
# The state behind a door

Requests share a store and the metrics about themselves.
-/

namespace FrontDoor

/-- What requests share: the state of the store and the metrics. -/
structure Door (σ : Type) where
  store : σ
  metrics : RequestMetrics

/-- The order in which the entries of a map are taken. Any order will do. -/
structure EntryOrder where
  arrange : Dictionary String → List (String × String)
  perm : ∀ m, (arrange m).Perm m.toList

/-- The order of the names. -/
def EntryOrder.byName : EntryOrder := ⟨Dictionary.toList, fun _ => .rfl⟩

end FrontDoor
