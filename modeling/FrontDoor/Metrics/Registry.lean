import FrontDoor.Metrics.Exposition
import FrontDoor.SystemError

/-!
# Registries

A registry holds collectors by the name of their family, each name once, and shows them in the order
of names. Registering the metrics of requests is two insertions: when the second fails, the first
stays.
-/

namespace FrontDoor

/-- What a registry holds. Metrics of requests are recorded elsewhere, under a number. Of other
collectors there are counters of one series without labels, and one without a name. A collector
whose series carry constant labels is none of these: one that has the name of a family with other
labels is refused for a reason of its own, which is left out. -/
inductive Collector where
  | latencies (source : Nat)
  | failures (source : Nat)
  | counter (name help : String) (value : Nat)
  /-- A collector whose family has no name and so cannot be shown. -/
  | nameless
  deriving DecidableEq

def Collector.name : Collector → String
  | .latencies _ => RequestMetrics.requestsName
  | .failures _ => RequestMetrics.errorsName
  | .counter name _ _ => name
  | .nameless => ""

inductive MetricsError where
  /-- The name of a family is taken. -/
  | alreadyRegistered
  /-- A family without a name cannot be shown. -/
  | namelessFamily
  | system (e : SystemError)
  deriving DecidableEq, Repr

namespace MetricsError

/-- The text of the cause of an error. -/
def cause : MetricsError → String
  | .alreadyRegistered => "Duplicate metrics collector registration attempted"
  | .namelessFamily =>
    "Error: MetricFamily has no name: name: \"\" help: \"y\" type: COUNTER "
      ++ "metric \x7bcounter \x7bvalue: 0\x7d\x7d"
  | .system e => e.message

/-- The text of an error: its kind and its cause. -/
def message (e : MetricsError) : String :=
  let kind := match e with
    | .system _ => "I/O error: "
    | _ => "prometheus error: "
  kind ++ e.cause

end MetricsError

/-- The collectors of a registry, by the names of their families. -/
abbrev Registry := Dictionary Collector

namespace Registry

def new : Registry := .empty

/-- Takes in a collector whose name is free. A name is all that its collectors can clash in, since
no series of theirs has constant labels. -/
def add (r : Registry) (c : Collector) : Except MetricsError Unit × Registry :=
  if r.contains c.name then (.error .alreadyRegistered, r) else (.ok (), r.insert c.name c)

/-- Takes in the metrics of requests, latencies before failures. -/
def register (r : Registry) (source : Nat) : Except MetricsError Unit × Registry :=
  match r.add (.latencies source) with
  | (.error e, r') => (.error e, r')
  | (.ok (), r') => r'.add (.failures source)

/-- The family that a collector shows, or nothing when it has no name. -/
def family? (metrics : Nat → RequestMetrics) : Collector → Option Exposition.Family
  | .latencies source => some (Exposition.latencyFamily (metrics source))
  | .failures source => some (Exposition.failureFamily (metrics source))
  | .counter name help value => some ⟨name, help, .counter, [([], .counter value)]⟩
  | .nameless => none

/-- The exposition text of a registry, with the metrics of requests as they are now. -/
def encode (r : Registry) (metrics : Nat → RequestMetrics) : Except MetricsError String :=
  match r.values.mapM (family? metrics) with
  | some families => .ok (Exposition.text families)
  | none => .error .namelessFamily

end Registry

end FrontDoor
