import FrontDoor.Metrics.Scrape

/-!
# Metric sets and registries side by side

A hub holds any number of metric sets and registries. A set is a handle: a copy of it records into
the same series, which registries show as well, while a new set has series of its own. Registries
may also be given collectors from elsewhere, of the kinds that `Collector` lists.
-/

namespace FrontDoor

/-- The series that were ever made, the sets that record into them, and the registries. -/
structure Hub where
  sources : List RequestMetrics
  /-- Which series each set records into. -/
  sets : List Nat
  registries : List Registry

namespace Hub

def start : Hub := ⟨[.new], [0], [.new]⟩

/-- The series of a source; a source that was never made has none. -/
def metrics (h : Hub) (source : Nat) : RequestMetrics := h.sources.getD source .new

def sourceOf (h : Hub) (set : Nat) : Nat := h.sets.getD set h.sources.length

def registry (h : Hub) (i : Nat) : Registry := h.registries.getD i .new

def record (h : Hub) (set : Nat) (f : RequestMetrics → RequestMetrics) : Hub :=
  { h with sources := h.sources.modify (h.sourceOf set) f }

def putRegistry (h : Hub) (i : Nat) (r : Registry) : Hub :=
  { h with registries := h.registries.set i r }

/-- A step with sets and registries, which are named by their numbers. -/
inductive Step where
  | newSet
  | copySet (set : Nat)
  | newRegistry
  | register (set registry : Nat)
  | observe (set : Nat) (endpoint method : String) (nanos : Binary64)
  | countError (set : Nat) (endpoint method : String) (status : Nat)
  /-- Registers a counter without labels under a name that may be that of another family. -/
  | addCounter (registry : Nat) (name help : String) (value : Nat)
  /-- Registers a collector that can be registered but not shown. -/
  | addNameless (registry : Nat)
  | requestCount (set : Nat) (endpoint method : String)
  | errorCount (set : Nat) (endpoint method : String) (status : Nat)
  | describe (set : Nat)
  | encode (registry : Nat)
  | scrape (registry : Nat) (request : Except RequestError Request)

inductive Answer where
  | set (number : Nat)
  | registry (number : Nat)
  | outcome (r : Except MetricsError Unit)
  | count (n : Nat)
  | text (t : String)
  | exposition (r : Except MetricsError String)
  | response (r : Except RequestError Response)

def add (h : Hub) (registry : Nat) (c : Collector) : Answer × Hub :=
  let (r, reg) := (h.registry registry).add c
  (.outcome r, h.putRegistry registry reg)

def perform (h : Hub) : Step → Answer × Hub
  | .newSet =>
    (.set h.sets.length,
      { h with sources := h.sources ++ [.new], sets := h.sets ++ [h.sources.length] })
  | .copySet set => (.set h.sets.length, { h with sets := h.sets ++ [h.sourceOf set] })
  | .newRegistry => (.registry h.registries.length, { h with registries := h.registries ++ [.new] })
  | .register set registry =>
    let (r, reg) := (h.registry registry).register (h.sourceOf set)
    (.outcome r, h.putRegistry registry reg)
  | .observe set endpoint method nanos =>
    (.outcome (.ok ()), h.record set (·.observeLatency endpoint method nanos))
  | .countError set endpoint method status =>
    (.outcome (.ok ()), h.record set (·.countError endpoint method status))
  | .addCounter registry name help value => h.add registry (.counter name help value)
  | .addNameless registry => h.add registry .nameless
  | .requestCount set endpoint method =>
    (.count ((h.metrics (h.sourceOf set)).requestCount endpoint method).1,
      h.record set fun m => (m.requestCount endpoint method).2)
  | .errorCount set endpoint method status =>
    (.count ((h.metrics (h.sourceOf set)).errorCount endpoint method status).1,
      h.record set fun m => (m.errorCount endpoint method status).2)
  | .describe set => (.text (h.metrics (h.sourceOf set)).describe, h)
  | .encode registry => (.exposition ((h.registry registry).encode h.metrics), h)
  | .scrape registry request =>
    (.response (request.map (Scrape.serve ((h.registry registry).encode h.metrics))), h)

end Hub

end FrontDoor
