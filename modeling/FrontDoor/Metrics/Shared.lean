import FrontDoor.Metrics.Registry

/-!
# The metrics of a process

A process has one registry and at most one set of metrics of requests in it, which is made and
registered when it is first asked for.
-/

namespace FrontDoor

/-- The registry of a process, and its metrics once they were asked for. -/
structure SharedMetrics where
  registry : Registry
  metrics? : Option RequestMetrics
  deriving DecidableEq

namespace SharedMetrics

/-- A process that was not asked for metrics yet. -/
def fresh : SharedMetrics := ⟨.new, none⟩

/-- The number under which the metrics are registered. -/
def source : Nat := 0

def get (s : SharedMetrics) : Except MetricsError RequestMetrics × SharedMetrics :=
  match s.metrics? with
  | some m => (.ok m, s)
  | none =>
    match s.registry.register source with
    | (.error e, registry) => (.error e, { s with registry := registry })
    | (.ok (), registry) => (.ok .new, ⟨registry, some .new⟩)

end SharedMetrics

end FrontDoor
