import FrontDoor.Address.Socket

/-!
# Settings of a node

A node has two addresses, a name, and a switch for its metrics.
-/

namespace FrontDoor

structure Settings where
  httpAddr : SocketAddress
  metricsAddr : SocketAddress
  nodeId : String
  exposeMetrics : Bool
  deriving DecidableEq, Repr

namespace Settings

/-- The settings of a node that was told nothing. -/
def default : Settings where
  httpAddr := .v4 ⟨127, 0, 0, 1⟩ 11000
  metricsAddr := .v4 ⟨0, 0, 0, 0⟩ 9100
  nodeId := "node0"
  exposeMetrics := true

end Settings

end FrontDoor
