import FrontDoor.Metrics.Histogram
import FrontDoor.Metrics.Series
import FrontDoor.Text.Digits

/-!
# Metrics of requests

Two families describe the requests to an endpoint: their latencies, by method, and their failures,
by method and status. What they count, like the counts of a histogram, has no greatest value here:
counters of 64 bits would begin anew after `2 ^ 64` requests, which are out of reach.
-/

namespace FrontDoor

/-- The latencies and the failures recorded so far. -/
structure RequestMetrics where
  latencies : SeriesTable Histogram
  failures : SeriesTable Nat
  deriving DecidableEq

namespace RequestMetrics

def requestsName : String := "http_requests"
def requestsHelp : String := "HTTP requests to the raftkv service"
def errorsName : String := "http_request_errors"
def errorsHelp : String := "Failed HTTP requests to the raftkv service"

/-- The names of the labels, in the order of the label values. A family takes as many as it has. -/
def labelNames : List String := ["endpoint", "method", "status"]

/-- The latency bounds: from a microsecond to about 67 seconds, in nanoseconds. -/
def latencyBounds : List Binary64 := (List.range 14).map fun i => .ofNat (1000 * Nat.pow 4 i)

def noLatencies : Histogram := .ofBounds latencyBounds

def new : RequestMetrics := ⟨.empty, .empty⟩

/-- Records how long a request took, in nanoseconds. -/
def observeLatency (m : RequestMetrics) (endpoint method : String) (nanos : Binary64) :
    RequestMetrics :=
  let series := SeriesTable.update m.latencies noLatencies [endpoint, method] (·.observe nanos)
  { m with latencies := series }

def failureLabels (endpoint method : String) (status : Nat) : List String :=
  [endpoint, method, Digits.decimal status]

def countError (m : RequestMetrics) (endpoint method : String) (status : Nat) : RequestMetrics :=
  let series := SeriesTable.update m.failures 0 (failureLabels endpoint method status) (· + 1)
  { m with failures := series }

/-- How many requests took any time, and the metrics with the series that was looked at. -/
def requestCount (m : RequestMetrics) (endpoint method : String) : Nat × RequestMetrics :=
  ((SeriesTable.find m.latencies noLatencies [endpoint, method]).value.count,
   { m with latencies := SeriesTable.update m.latencies noLatencies [endpoint, method] id })

/-- How many failures there were, and the metrics with the series that was looked at. -/
def errorCount (m : RequestMetrics) (endpoint method : String) (status : Nat) :
    Nat × RequestMetrics :=
  ((SeriesTable.find m.failures 0 (failureLabels endpoint method status)).value,
   { m with failures := SeriesTable.update m.failures 0 (failureLabels endpoint method status) id })

def describe (_ : RequestMetrics) : String :=
  "HttpMetrics \x7b requests: \"" ++ requestsName ++ "\", errors: \"" ++ errorsName ++ "\" \x7d"

/-- One line for each series: family, label values and count, failures first. -/
def counters (m : RequestMetrics) : List String :=
  let line (name : String) (labels : List String) (count : Nat) : String :=
    " ".intercalate (name :: labels ++ [Digits.decimal count])
  m.failures.sorted.map (fun s => line errorsName s.labels s.value)
    ++ m.latencies.sorted.map (fun s => line requestsName s.labels s.value.count)

end RequestMetrics

end FrontDoor
