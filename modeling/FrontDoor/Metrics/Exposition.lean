import FrontDoor.Metrics.Requests
import FrontDoor.Number.Shortest

/-!
# The exposition text

A scrape answers a text with a paragraph for each family: what it is about, its kind, and a line for
each sample. A histogram has a line for each bound, which counts the observations up to it, one for
all observations, their sum and their number.
-/

namespace FrontDoor.Exposition

/-- What one series shows. -/
inductive Reading where
  | counter (value : Nat)
  | histogram (h : Histogram)

inductive Kind where
  | counter
  | histogram

/-- A family as it is shown: its series with their labels. -/
structure Family where
  name : String
  help : String
  kind : Kind
  series : List (List (String × String) × Reading)

/-- Replaces each character by its escape. -/
def escapeWith (escape : Char → List Char) (s : String) : String :=
  String.ofList (s.toList.flatMap escape)

/-- The escape of a character in a help text. -/
def helpEscape (c : Char) : List Char :=
  if c = '\\' then ['\\', '\\'] else if c = '\n' then ['\\', 'n'] else [c]

/-- The escape of a character in a label value. -/
def labelEscape (c : Char) : List Char := if c = '"' then ['\\', '"'] else helpEscape c

/-- The labels of a sample, in braces; without labels there are none. -/
def labelsText (labels : List (String × String)) : String :=
  if labels.isEmpty then ""
  else "\x7b" ++ ",".intercalate
    (labels.map fun l => l.1 ++ "=\"" ++ escapeWith labelEscape l.2 ++ "\"") ++ "\x7d"

/-- A count as a number of the text. -/
def number (n : Nat) : String := (Binary64.ofNat n).text

def sample (name : String) (labels : List (String × String)) (value : String) : String :=
  name ++ labelsText labels ++ " " ++ value ++ "\n"

def seriesText (name : String) (labels : List (String × String)) : Reading → String
  | .counter value => sample name labels (number value)
  | .histogram h =>
    String.join (h.cumulative.map fun b =>
        sample (name ++ "_bucket") (labels ++ [("le", b.bound.text)]) (number b.count))
      ++ sample (name ++ "_bucket") (labels ++ [("le", "+Inf")]) (number h.count)
      ++ sample (name ++ "_sum") labels h.sum.text
      ++ sample (name ++ "_count") labels (number h.count)

def Kind.text : Kind → String
  | .counter => "counter"
  | .histogram => "histogram"

def familyText (f : Family) : String :=
  "# HELP " ++ f.name ++ " " ++ escapeWith helpEscape f.help ++ "\n"
    ++ "# TYPE " ++ f.name ++ " " ++ f.kind.text ++ "\n"
    ++ String.join (f.series.map fun s => seriesText f.name s.1 s.2)

def latencyFamily (m : RequestMetrics) : Family :=
  ⟨RequestMetrics.requestsName, RequestMetrics.requestsHelp, .histogram,
    m.latencies.sorted.map fun s => (RequestMetrics.labelNames.zip s.labels, .histogram s.value)⟩

def failureFamily (m : RequestMetrics) : Family :=
  ⟨RequestMetrics.errorsName, RequestMetrics.errorsHelp, .counter,
    m.failures.sorted.map fun s => (RequestMetrics.labelNames.zip s.labels, .counter s.value)⟩

/-- The text of families in the order in which they stand; a family without series is left out. -/
def text (families : List Family) : String :=
  String.join ((families.filter fun f => !f.series.isEmpty).map familyText)

end FrontDoor.Exposition
