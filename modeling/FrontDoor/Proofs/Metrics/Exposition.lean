import FrontDoor.Proofs.Metrics.Lines
import FrontDoor.Proofs.Metrics.Uses
import FrontDoor.Proofs.Number.Numerals

/-!
# What a scrape shows

A scrape of a set that is alone in its registry, read back, is one sample for each failure that a
use was about and one group of samples for each endpoint and method, and nothing else
(`exposition_after_run`).
-/

namespace FrontDoor

namespace Exposition

/-! ## Families as lines -/

def seriesLines (name : String) (labels : List (String × String)) : Reading → List Line
  | .counter value => [.sample name labels (number value)]
  | .histogram h =>
    h.cumulative.map (fun b =>
        .sample (name ++ "_bucket") (labels ++ [("le", b.bound.text)]) (number b.count))
      ++ [.sample (name ++ "_bucket") (labels ++ [("le", "+Inf")]) (number h.count),
        .sample (name ++ "_sum") labels h.sum.text,
        .sample (name ++ "_count") labels (number h.count)]

/-- The lines of a family; one without series has none. -/
def Family.lines (f : Family) : List Line :=
  if f.series.isEmpty then []
  else
    .comment ("HELP " ++ f.name ++ " " ++ escapeWith helpEscape f.help)
      :: .comment ("TYPE " ++ f.name ++ " " ++ f.kind.text)
      :: f.series.flatMap fun s => seriesLines f.name s.1 s.2

theorem seriesText_eq (name : String) (labels : List (String × String)) (reading : Reading) :
    seriesText name labels reading =
      String.join ((seriesLines name labels reading).map Line.text) := by
  apply String.toList_injective
  cases reading with
  | counter value => simp [seriesText, seriesLines, Line.text]
  | histogram h =>
    simp [seriesText, seriesLines, Line.text, List.flatMap_map, Function.comp_def]

theorem join_flatMap {α : Type} (f : α → List String) (l : List α) :
    String.join (l.flatMap f) = String.join (l.map fun x => String.join (f x)) := by
  apply String.toList_injective
  simp [List.flatMap_assoc, List.flatMap_map]

theorem familyText_eq {f : Family} (h : f.series.isEmpty = false) :
    familyText f = String.join (f.lines.map Line.text) := by
  have hseries : String.join (f.series.map fun s => seriesText f.name s.1 s.2) =
      String.join ((f.series.flatMap fun s => seriesLines f.name s.1 s.2).map Line.text) := by
    simp only [List.map_flatMap, join_flatMap, seriesText_eq]
  -- Not by the equation of `familyText`, which is slow to make for the literals in it.
  delta familyText
  rw [hseries, Family.lines, h]
  apply String.toList_injective
  simp [Line.text]

theorem text_eq (families : List Family) :
    text families = String.join ((families.flatMap Family.lines).map Line.text) := by
  rw [text, List.map_flatMap, join_flatMap]
  induction families with
  | nil => rfl
  | cons f families ih =>
    rw [List.map_cons, String.join_cons, ← ih]
    cases hempty : f.series.isEmpty with
    | true => simp [Family.lines, hempty]
    | false => simp [hempty, familyText_eq hempty]

/-- Whether nothing in a family but its label values needs an escape. -/
structure Family.Simple (f : Family) : Prop where
  name : Plain f.name
  labels : ∀ s ∈ f.series, ∀ l ∈ s.1, Plain l.1

theorem newline_not_mem_number (n : Nat) : '\n' ∉ (number n).toList :=
  Binary64.newline_not_mem_text _

theorem Plain.append {s t : String} (hs : Plain s) (ht : Plain t) : Plain (s ++ t) := by
  intro c hc hmem
  rw [String.toList_append, List.mem_append] at hmem
  exact hmem.elim (hs c hc) (ht c hc)

theorem legible_seriesLines {name : String} {labels : List (String × String)} (reading : Reading)
    (hname : Plain name) (hlabels : ∀ l ∈ labels, Plain l.1) :
    ∀ line ∈ seriesLines name labels reading, line.Legible := by
  have hle : ∀ le : String, ∀ l ∈ labels ++ [("le", le)], Plain l.1 := by
    intro le l hl
    rcases List.mem_append.mp hl with hl | hl
    · exact hlabels l hl
    · rw [List.mem_singleton.mp hl]
      exact show Plain "le" by decide
  have hbucket : Plain (name ++ "_bucket") := hname.append (by decide)
  intro line hline
  cases reading with
  | counter value =>
    rw [List.mem_singleton.mp hline]
    exact ⟨hname, hlabels, newline_not_mem_number value⟩
  | histogram h =>
    rcases List.mem_append.mp hline with hline | hline
    · obtain ⟨b, -, rfl⟩ := List.mem_map.mp hline
      exact ⟨hbucket, hle _, newline_not_mem_number b.count⟩
    · simp only [List.mem_cons, List.not_mem_nil, or_false] at hline
      rcases hline with rfl | rfl | rfl
      · exact ⟨hbucket, hle _, newline_not_mem_number h.count⟩
      · exact ⟨hname.append (by decide), hlabels, Binary64.newline_not_mem_text h.sum⟩
      · exact ⟨hname.append (by decide), hlabels, newline_not_mem_number h.count⟩

theorem newline_not_mem_escaped (help : String) :
    '\n' ∉ (escapeWith helpEscape help).toList := by
  rw [escapeWith, String.toList_ofList, List.mem_flatMap]
  rintro ⟨c, -, hc⟩
  unfold helpEscape at hc
  split_ifs at hc with hbackslash hnewline
  · revert hc; decide
  · revert hc; decide
  · exact hnewline (List.mem_singleton.mp hc).symm

theorem Family.Simple.legible {f : Family} (h : f.Simple) : ∀ line ∈ f.lines, line.Legible := by
  have hname : '\n' ∉ f.name.toList := h.name '\n' (by simp)
  have hkind : '\n' ∉ f.kind.text.toList := by
    cases f.kind <;> decide
  intro line hline
  unfold lines at hline
  split at hline
  · cases hline
  · rw [List.mem_cons, List.mem_cons, List.mem_flatMap] at hline
    rcases hline with rfl | rfl | ⟨s, hs, hline⟩
    · simp [Line.Legible, hname, newline_not_mem_escaped]
    · simp [Line.Legible, hname, hkind]
    · exact legible_seriesLines s.2 h.name (h.labels s hs) line hline

/-- Reading an exposition yields the lines of its families. -/
theorem read?_families {families : List Family} (h : ∀ f ∈ families, f.Simple) :
    read? (text families) = some (families.flatMap Family.lines) := by
  rw [text_eq]
  refine read?_text fun line hline => ?_
  obtain ⟨f, hf, hline⟩ := List.mem_flatMap.mp hline
  exact (h f hf).legible line hline

end Exposition

namespace RequestMetrics

open Exposition (Line number)

variable (uses : List Use)

/-- The labels of a failure as they are named in a sample. -/
def failurePairs (p : String × String × Nat) : List (String × String) :=
  [("endpoint", p.1), ("method", p.2.1), ("status", Digits.decimal p.2.2)]

/-- The labels of a latency as they are named in a sample. -/
def requestPairs (p : String × String) : List (String × String) :=
  [("endpoint", p.1), ("method", p.2)]

/-- The lines of the failures, for the tuples in the order given: how often each was counted. -/
def failureLines (tuples : List (String × String × Nat)) : List Line :=
  if tuples.isEmpty then []
  else
    .comment "HELP http_request_errors Failed HTTP requests to the raftkv service"
      :: .comment "TYPE http_request_errors counter"
      :: tuples.map fun p =>
        .sample "http_request_errors" (failurePairs p) (number (failuresOf uses p.1 p.2.1 p.2.2))

/-- The lines of the latencies under one endpoint and method: how many there are up to each bound,
how many in all, their sum, and their number once more. -/
def requestLines (p : String × String) : List Line :=
  let latencies := latenciesOf uses p.1 p.2
  (List.range 14).map (fun i =>
      .sample "http_requests_bucket" (requestPairs p ++ [("le", Digits.decimal (latencyBound i))])
        (number (latencies.countP (·.le (.ofNat (latencyBound i))))))
    ++ [.sample "http_requests_bucket" (requestPairs p ++ [("le", "+Inf")])
        (number latencies.length),
      .sample "http_requests_sum" (requestPairs p) (latencies.foldl Binary64.add .zero).text,
      .sample "http_requests_count" (requestPairs p) (number latencies.length)]

/-- The lines of the latencies, for the endpoints and methods in the order given. -/
def latencyLines (tuples : List (String × String)) : List Line :=
  if tuples.isEmpty then []
  else
    .comment "HELP http_requests HTTP requests to the raftkv service"
      :: .comment "TYPE http_requests histogram"
      :: tuples.flatMap (requestLines uses)

variable {uses}

theorem mem_failureLines {tuples : List (String × String × Nat)} {p : String × String × Nat}
    (hp : p ∈ tuples) :
    .sample "http_request_errors" (failurePairs p) (number (failuresOf uses p.1 p.2.1 p.2.2)) ∈
      failureLines uses tuples := by
  unfold failureLines
  rw [if_neg (by simpa using List.ne_nil_of_mem hp)]
  exact List.mem_cons_of_mem _ (List.mem_cons_of_mem _ (List.mem_map_of_mem hp))

theorem mem_latencyLines {tuples : List (String × String)} {p : String × String} (hp : p ∈ tuples)
    {line : Line} (hline : line ∈ requestLines uses p) : line ∈ latencyLines uses tuples := by
  unfold latencyLines
  rw [if_neg (by simpa using List.ne_nil_of_mem hp)]
  exact List.mem_cons_of_mem _ (List.mem_cons_of_mem _ (List.mem_flatMap.mpr ⟨p, hp, hline⟩))

theorem errorsHelp_line : "HELP " ++ errorsName ++ " " ++
    Exposition.escapeWith Exposition.helpEscape errorsHelp =
      "HELP http_request_errors Failed HTTP requests to the raftkv service" := by decide

theorem requestsHelp_line : "HELP " ++ requestsName ++ " " ++
    Exposition.escapeWith Exposition.helpEscape requestsHelp =
      "HELP http_requests HTTP requests to the raftkv service" := by decide

theorem lines_failureFamily {m : RequestMetrics} {listed : List (String × String × Nat)}
    (h : m.failures.sorted = listed.map fun p =>
      ⟨failureTuple p, failuresOf uses p.1 p.2.1 p.2.2⟩) :
    (Exposition.failureFamily m).lines = failureLines uses listed := by
  unfold Exposition.failureFamily Exposition.Family.lines failureLines
  rw [h, List.map_map, List.isEmpty_map, errorsHelp_line, List.flatMap_map]
  split
  · rfl
  · refine congrArg₂ List.cons rfl (congrArg₂ List.cons rfl ?_)
    exact List.map_eq_flatMap.symm

theorem seriesLines_latencies (uses : List Use) (p : String × String) :
    Exposition.seriesLines requestsName (labelNames.zip (requestLabels p))
      (.histogram ((latenciesOf uses p.1 p.2).foldl Histogram.observe noLatencies)) =
      requestLines uses p := by
  have hbound : ∀ i ∈ List.range 14,
      (Binary64.ofNat (latencyBound i)).text = Digits.decimal (latencyBound i) := fun i hi =>
    Binary64.text_ofNat (latencyBound_lt (List.mem_range.mp hi))
  have hcount : ((latenciesOf uses p.1 p.2).foldl Histogram.observe noLatencies).count =
      (latenciesOf uses p.1 p.2).length :=
    (Histogram.count_foldl_observe _ _).trans (Nat.zero_add _)
  have hsum : ((latenciesOf uses p.1 p.2).foldl Histogram.observe noLatencies).sum =
      (latenciesOf uses p.1 p.2).foldl Binary64.add .zero := Histogram.sum_foldl_observe _ _
  have hcumulative : ((latenciesOf uses p.1 p.2).foldl Histogram.observe noLatencies).cumulative =
      (List.range 14).map fun i => ⟨.ofNat (latencyBound i),
        (latenciesOf uses p.1 p.2).countP (·.le (.ofNat (latencyBound i)))⟩ :=
    (Histogram.cumulative_foldl_observe ascending_latencyBounds _).trans (List.map_map ..)
  simp only [Exposition.seriesLines, hcount, hsum, hcumulative, List.map_map]
  refine congrArg₂ _ (List.map_congr_left fun i hi => ?_) rfl
  dsimp only [Function.comp_apply]
  rw [hbound i hi]
  rfl

theorem lines_latencyFamily {m : RequestMetrics} {listed : List (String × String)}
    (h : m.latencies.sorted = listed.map fun p =>
      ⟨requestLabels p, (latenciesOf uses p.1 p.2).foldl Histogram.observe noLatencies⟩) :
    (Exposition.latencyFamily m).lines = latencyLines uses listed := by
  unfold Exposition.latencyFamily Exposition.Family.lines latencyLines
  rw [h, List.map_map, List.isEmpty_map, requestsHelp_line, List.flatMap_map]
  split
  · rfl
  · simp only [Function.comp_apply, seriesLines_latencies]
    rfl

theorem plain_of_mem_zip_labelNames {labels : List String} {l : String × String}
    (hl : l ∈ labelNames.zip labels) : Exposition.Plain l.1 := by
  have hnames : ∀ name ∈ labelNames, Exposition.Plain name := by decide
  exact hnames l.1 (List.of_mem_zip hl).1

/-- A family whose series are named by label values under the names of labels. -/
theorem simple_of_series {α : Type} {name : String} (hname : Exposition.Plain name) (help : String)
    (kind : Exposition.Kind) (series : List (Series α)) (reading : α → Exposition.Reading) :
    Exposition.Family.Simple ⟨name, help, kind,
      series.map fun s => (labelNames.zip s.labels, reading s.value)⟩ where
  name := hname
  labels s hs l hl := by
    obtain ⟨s', -, rfl⟩ := List.mem_map.mp hs
    exact plain_of_mem_zip_labelNames hl

theorem simple_failureFamily (m : RequestMetrics) : (Exposition.failureFamily m).Simple :=
  simple_of_series (by decide) ..

theorem simple_latencyFamily (m : RequestMetrics) : (Exposition.latencyFamily m).Simple :=
  simple_of_series (by decide) ..

end RequestMetrics

namespace Hub

open RequestMetrics
open Exposition (Line read? readQuoted? labelsText number)

/-- A text that shows a used set as it is. The tuples listed are those that a use was about, each of
them once, in the order of their label values. Read back, the text is the lines for these tuples and
no others, the family of failures before that of latencies; and their numbers are the counts that
the set answers. -/
structure Picture (hub : Hub) (uses : List Use) (failures : List (String × String × Nat))
    (latencies : List (String × String)) (text : String) : Prop where
  lines : read? text = some (failureLines uses failures ++ latencyLines uses latencies)
  failures_sorted : (failures.map failureTuple).Pairwise (· < ·)
  latencies_sorted : (latencies.map requestLabels).Pairwise (· < ·)
  mem_failures : ∀ p, p ∈ failures ↔ p ∈ uses.filterMap Use.failure?
  mem_latencies : ∀ p, p ∈ latencies ↔ p ∈ uses.filterMap Use.request?
  errorCount : ∀ p ∈ failures, (hub.perform (.errorCount 0 p.1 p.2.1 p.2.2)).1 =
    .count (failuresOf uses p.1 p.2.1 p.2.2)
  requestCount : ∀ p ∈ latencies, (hub.perform (.requestCount 0 p.1 p.2)).1 =
    .count (latenciesOf uses p.1 p.2).length
  /-- Under a larger bound there are no fewer latencies, and never more than there are in all. -/
  buckets : ∀ p ∈ latencies, ∀ i j, i ≤ j →
    (latenciesOf uses p.1 p.2).countP (·.le (.ofNat (latencyBound i))) ≤
        (latenciesOf uses p.1 p.2).countP (·.le (.ofNat (latencyBound j))) ∧
      (latenciesOf uses p.1 p.2).countP (·.le (.ofNat (latencyBound j))) ≤
        (latenciesOf uses p.1 p.2).length

/-- How a picture is to be read. -/
structure Legend : Prop where
  /-- Label values are read back from their escapes. -/
  escapes : ∀ value rest, readQuoted? ((Exposition.escapeWith Exposition.labelEscape value).toList
    ++ '"' :: rest) = some (value.toList, rest)
  failures_apart : ∀ p q, labelsText (failurePairs p) = labelsText (failurePairs q) → p = q
  requests_apart : ∀ p q, labelsText (requestPairs p) = labelsText (requestPairs q) → p = q
  families_sorted : errorsName < requestsName
  /-- From 2^53 on a count is written as the numeral of the nearest double. -/
  numerals : ∀ n, n < 2 ^ 53 → number n = Digits.decimal n
  /-- A larger count is never written as a smaller number. -/
  numerals_mono : ∀ m n, m ≤ n → (Binary64.ofNat m).le (.ofNat n) = true
  /-- An integer is counted under the bounds that it does not exceed. -/
  integers : ∀ z i, i < 14 →
    ((Binary64.ofInt z).le (.ofNat (latencyBound i)) = true ↔ z ≤ latencyBound i)
  nan : ∀ bound, Binary64.nan.le bound = false

theorem failurePairs_injective : Function.Injective failurePairs := by
  rintro ⟨endpoint, method, status⟩ ⟨endpoint', method', status'⟩ h
  simp only [failurePairs, List.cons.injEq, Prod.mk.injEq, true_and, and_true] at h
  obtain ⟨rfl, rfl, hstatus⟩ := h
  rw [Digits.decimal_injective hstatus]

theorem requestPairs_injective : Function.Injective requestPairs := by
  rintro ⟨endpoint, method⟩ ⟨endpoint', method'⟩ h
  simp only [requestPairs, List.cons.injEq, Prod.mk.injEq, true_and, and_true] at h
  obtain ⟨rfl, rfl⟩ := h
  rfl

theorem plain_failurePairs (p : String × String × Nat) :
    ∀ l ∈ failurePairs p, Exposition.Plain l.1 := fun l hl =>
  have hzip : l ∈ labelNames.zip (failureTuple p) := hl
  plain_of_mem_zip_labelNames hzip

theorem plain_requestPairs (p : String × String) : ∀ l ∈ requestPairs p, Exposition.Plain l.1 :=
  fun l hl =>
    have hzip : l ∈ labelNames.zip (requestLabels p) := hl
    plain_of_mem_zip_labelNames hzip

theorem legend : Legend where
  escapes value rest := by
    rw [Exposition.escapeWith, String.toList_ofList]
    exact Exposition.readQuoted?_escape value.toList rest
  failures_apart p q h := failurePairs_injective
    (Exposition.labelsText_injective (plain_failurePairs p) (plain_failurePairs q) h)
  requests_apart p q h := requestPairs_injective
    (Exposition.labelsText_injective (plain_requestPairs p) (plain_requestPairs q) h)
  families_sorted := by decide
  numerals _ := Binary64.text_ofNat
  numerals_mono _ _ := Binary64.ofNat_le_ofNat
  integers z _ hi := Binary64.ofInt_le_ofNat_iff z (latencyBound_lt hi)
  nan _ := rfl

theorem latencyBound_le_latencyBound {i j : Nat} (h : i ≤ j) :
    (Binary64.ofNat (latencyBound i)).le (.ofNat (latencyBound j)) = true :=
  Binary64.ofNat_le_ofNat (Nat.mul_le_mul_left 1000 (Nat.pow_le_pow_right (by decide) h))

/-- **The scrape text is a faithful picture of the series.** After any run in which a set is
registered alone and used before and after, and in which no two lists of label values of one family
read the same, a scrape succeeds, and its text is a picture of the set, to be read by the legend. -/
theorem exposition_after_run (before after : List Use) (h : Use.Distinct (before ++ after)) :
    let hub := start.after (soloRun before after)
    (∃ text failures latencies, (hub.perform (.encode 0)).1 = .exposition (.ok text) ∧
      Picture hub (before ++ after) failures latencies text) ∧ Legend := by
  intro hub
  have hhub : hub = solo (used (before ++ after)) soloRegistry := after_soloRun before after
  obtain ⟨failures, hfailures, hmemF, hsortedF⟩ := exists_failures_sorted h
  obtain ⟨latencies, hlatencies, hmemL, hsortedL⟩ := exists_latencies_sorted h
  refine ⟨⟨_, failures, latencies, hhub ▸ encode_solo _, ?_⟩, legend⟩
  refine ⟨?_, hfailures, hlatencies, hmemF, hmemL, ?_, ?_, ?_⟩
  · rw [Exposition.read?_families, List.flatMap_cons, List.flatMap_singleton,
      lines_failureFamily hsortedF, lines_latencyFamily hsortedL]
    simp only [List.mem_cons, List.not_mem_nil, or_false]
    rintro f (rfl | rfl)
    · exact simple_failureFamily _
    · exact simple_latencyFamily _
  · intro p hp
    rw [hhub]
    exact congrArg Answer.count (errors_used h ((hmemF p).mp hp))
  · intro p hp
    rw [hhub]
    exact congrArg Answer.count (requests_used h ((hmemL p).mp hp))
  · exact fun p _ i j hij =>
      ⟨Histogram.countP_le_mono (latencyBound_le_latencyBound hij) _, List.countP_le_length⟩

/-- Quotes, backslashes and newlines in label values do not disturb a scrape, and what is not a
number is counted in all but in no bucket. -/
theorem exposition_of_odd_labels :
    let before := [Use.countError "a\"\\" "G\nT" 404, .requestCount "/key" "PUT"]
    let after := [Use.observe "/key" "GET" (.ofInt 1000), .observe "/key" "GET" .nan,
      .errorCount "a" "\\n" 500]
    let hub := start.after (soloRun before after)
    Use.Distinct (before ++ after) ∧ ∃ text lines,
      (hub.perform (.encode 0)).1 = .exposition (.ok text) ∧ read? text = some lines ∧
      .sample "http_request_errors" [("endpoint", "a\"\\"), ("method", "G\nT"), ("status", "404")]
        "1" ∈ lines ∧
      .sample "http_requests_bucket" [("endpoint", "/key"), ("method", "GET"), ("le", "1000")]
        "1" ∈ lines ∧
      .sample "http_requests_count" [("endpoint", "/key"), ("method", "GET")] "2" ∈ lines := by
  intro before after hub
  have hdistinct : Use.Distinct (before ++ after) := ⟨by decide +kernel, by decide +kernel⟩
  obtain ⟨⟨text, failures, latencies, htext, picture⟩, legend⟩ :=
    exposition_after_run before after hdistinct
  have hfailure := (picture.mem_failures ("a\"\\", "G\nT", 404)).mpr (by decide +kernel)
  have hrequest := (picture.mem_latencies ("/key", "GET")).mpr (by decide +kernel)
  refine ⟨hdistinct, text, _, htext, picture.lines, ?_, ?_, ?_⟩
  · have hone : number (failuresOf (before ++ after) "a\"\\" "G\nT" 404) = "1" :=
      (legend.numerals _ (by decide +kernel)).trans (by decide +kernel)
    exact List.mem_append_left _ (hone ▸ mem_failureLines hfailure)
  · have hone : number ((latenciesOf (before ++ after) "/key" "GET").countP
        (·.le (.ofNat (latencyBound 0)))) = "1" :=
      (legend.numerals _ (by decide +kernel)).trans (by decide +kernel)
    refine List.mem_append_right _ (mem_latencyLines hrequest (List.mem_append_left _ ?_))
    exact List.mem_map.mpr ⟨0, by decide, hone ▸ rfl⟩
  · have htwo : number (latenciesOf (before ++ after) "/key" "GET").length = "2" :=
      (legend.numerals _ (by decide +kernel)).trans (by decide +kernel)
    refine List.mem_append_right _ (mem_latencyLines hrequest (List.mem_append_right _ ?_))
    exact List.mem_cons_of_mem _ (List.mem_cons_of_mem _ (List.mem_singleton.mpr (htwo ▸ rfl)))

end Hub

end FrontDoor
