import FrontDoor.Metrics.Hub
import FrontDoor.Proofs.Metrics.Counts
import Mathlib.Data.List.GetD

/-!
# Counts and the history of metric sets

Every set goes back to a new set, of which it is a copy, or a copy of a copy: its origin. Sets of
one origin are kin. Two sets record into the same series exactly when they are kin (`Tracks`), so
what a set counts are the records through its kin (`counts_of_history`), however reads,
registrations and encodings are strewn among them.
-/

namespace FrontDoor.Hub

/-- The set that a step is done with. -/
def Step.set? : Step → Option Nat
  | .copySet set | .register set _ | .observe set _ _ _ | .countError set _ _ _
  | .requestCount set _ _ | .errorCount set _ _ _ | .describe set => some set
  | _ => none

/-- Steps that neither make a set nor record anything. -/
def Step.idle : Step → Bool
  | .newSet | .copySet _ | .observe _ _ _ _ | .countError _ _ _ _ => false
  | _ => true

/-- Whether a step records a latency under labels that read so. -/
def Step.observes (reading : String) : Step → Bool
  | .observe _ endpoint method _ => endpoint ++ method == reading
  | _ => false

/-- Whether a step counts a failure under labels that read so. -/
def Step.fails (reading : String) : Step → Bool
  | .countError _ endpoint method status =>
    endpoint ++ method ++ Digits.decimal status == reading
  | _ => false

/-- The hub after some steps. -/
def after (h : Hub) (steps : List Step) : Hub := steps.foldl (fun h step => (h.perform step).2) h

/-- Whether each step is done with a set that there is. -/
def Legal : Hub → List Step → Prop
  | _, [] => True
  | h, step :: steps => (∀ set ∈ step.set?, set < h.sets.length) ∧ Legal (h.perform step).2 steps

instance decidableLegal : (h : Hub) → (steps : List Step) → Decidable (Legal h steps)
  | _, [] => .isTrue trivial
  | h, step :: steps =>
    have := decidableLegal (h.perform step).2 steps
    inferInstanceAs (Decidable ((∀ set ∈ step.set?, set < h.sets.length) ∧ _))

/-- The origins of the sets after one more step: a new set is its own, and a copy has that of the
set it was taken from. -/
def addOrigin (origins : List Nat) : Step → List Nat
  | .newSet => origins ++ [origins.length]
  | .copySet set => origins ++ [origins.getD set origins.length]
  | _ => origins

/-- The origin of every set after some steps from the start. -/
def origins (steps : List Step) : List Nat := steps.foldl addOrigin [0]

/-- Whether two sets go back to the same new set. -/
def kin (steps : List Step) (set set' : Nat) : Bool :=
  (origins steps)[set]? == (origins steps)[set']?

/-- How many of some steps count for a set: those that are done with kin of it. -/
def tally (steps : List Step) (set : Nat) (counts : Step → Bool) : Nat :=
  steps.countP fun step => counts step && step.set?.any (kin steps set)

/-! ## Sets only ever come -/

variable {h : Hub} {step : Step} {steps : List Step}

theorem sets_perform (h : Hub) (step : Step) :
    (h.perform step).2.sets = h.sets ∨ ∃ source, (h.perform step).2.sets = h.sets ++ [source] := by
  cases step with
  | newSet | copySet => exact .inr ⟨_, rfl⟩
  | _ => exact .inl rfl

theorem sets_after (h : Hub) (steps : List Step) :
    ∃ later, (h.after steps).sets = h.sets ++ later := by
  induction steps generalizing h with
  | nil => exact ⟨[], (List.append_nil _).symm⟩
  | cons step steps ih =>
    obtain ⟨later, hlater⟩ := ih (h.perform step).2
    rcases h.sets_perform step with hsets | ⟨source, hsets⟩ <;> rw [hsets] at hlater
    · exact ⟨later, hlater⟩
    · exact ⟨source :: later, hlater.trans (List.append_assoc _ _ _)⟩

theorem sourceOf_after {set : Nat} (hset : set < h.sets.length) (steps : List Step) :
    (h.after steps).sourceOf set = h.sourceOf set := by
  obtain ⟨later, hlater⟩ := h.sets_after steps
  rw [sourceOf, sourceOf, hlater, List.getD_append _ _ _ _ hset, List.getD_eq_getElem _ _ hset,
    List.getD_eq_getElem _ _ hset]

/-- The sets of the steps of a run are still there in the end. -/
theorem set_lt_of_mem (hlegal : Legal h steps) (hmem : step ∈ steps) {set : Nat}
    (hset : set ∈ step.set?) : set < (h.after steps).sets.length := by
  induction steps generalizing h with
  | nil => cases hmem
  | cons first steps ih =>
    rcases List.mem_cons.mp hmem with rfl | hmem
    · obtain ⟨later, hlater⟩ := h.sets_after (step :: steps)
      rw [hlater, List.length_append]
      exact Nat.lt_add_right _ (hlegal.1 set hset)
    · exact ih hlegal.2 hmem

/-! ## Kin share their series -/

/-- The sets of a hub and their origins: two sets record into the same series when their origins are
the same, and only then. -/
structure Tracks (h : Hub) (origins : List Nat) : Prop where
  length : h.sets.length = origins.length
  source_lt : ∀ source ∈ h.sets, source < h.sources.length
  origin_lt : ∀ origin ∈ origins, origin < origins.length
  alike : ∀ p ∈ h.sets.zip origins, ∀ q ∈ h.sets.zip origins, p.1 = q.1 ↔ p.2 = q.2

namespace Tracks

variable {origins : List Nat}

theorem start : Tracks start [0] := by
  refine ⟨rfl, by decide, by decide, by decide⟩

/-- What a set records into, beside its origin. -/
theorem mem_zip (hT : Tracks h origins) {set : Nat} (hset : set < h.sets.length) :
    (h.sourceOf set, origins.getD set origins.length) ∈ h.sets.zip origins := by
  have horigin : set < origins.length := hT.length ▸ hset
  have hzip : set < (h.sets.zip origins).length := by
    rw [List.length_zip]
    omega
  rw [sourceOf, List.getD_eq_getElem _ _ hset, List.getD_eq_getElem _ _ horigin,
    ← List.getElem_zip (h := hzip)]
  exact List.getElem_mem hzip

theorem sourceOf_lt (hT : Tracks h origins) {set : Nat} (hset : set < h.sets.length) :
    h.sourceOf set < h.sources.length :=
  hT.source_lt _ (List.of_mem_zip (hT.mem_zip hset)).1

/-- One more set, which shares its series with the sets of its origin and with no others. -/
theorem concat (hT : Tracks h origins) {sources : List RequestMetrics} {source origin : Nat}
    (hsources : h.sources.length ≤ sources.length) (hsource : source < sources.length)
    (horigin : origin ≤ origins.length)
    (halike : ∀ p ∈ h.sets.zip origins, p.1 = source ↔ p.2 = origin) :
    Tracks { h with sources := sources, sets := h.sets ++ [source] } (origins ++ [origin]) where
  length := by simp [hT.length]
  source_lt k hk := by
    rcases List.mem_append.mp hk with hk | hk
    · exact Nat.lt_of_lt_of_le (hT.source_lt k hk) hsources
    · exact List.mem_singleton.mp hk ▸ hsource
  origin_lt o ho := by
    rw [List.length_append, List.length_singleton]
    rcases List.mem_append.mp ho with ho | ho
    · exact Nat.lt_succ_of_lt (hT.origin_lt o ho)
    · exact List.mem_singleton.mp ho ▸ Nat.lt_succ_of_le horigin
  alike p hp q hq := by
    rw [List.zip_append hT.length, List.mem_append] at hp hq
    rcases hp with hp | hp <;> rcases hq with hq | hq
    · exact hT.alike p hp q hq
    · obtain rfl := List.mem_singleton.mp hq
      exact halike p hp
    · obtain rfl := List.mem_singleton.mp hp
      exact eq_comm.trans ((halike q hq).trans eq_comm)
    · obtain rfl := List.mem_singleton.mp hp
      obtain rfl := List.mem_singleton.mp hq
      exact Iff.intro (fun _ => rfl) (fun _ => rfl)

/-- A step with the same sets, over as many series. -/
theorem of_sets_eq (hT : Tracks h origins) {h' : Hub} (hsets : h'.sets = h.sets)
    (hsources : h'.sources.length = h.sources.length) : Tracks h' origins where
  length := hsets ▸ hT.length
  source_lt := by
    rw [hsets, hsources]
    exact hT.source_lt
  origin_lt := hT.origin_lt
  alike := hsets ▸ hT.alike

theorem perform (hT : Tracks h origins) (hstep : ∀ set ∈ step.set?, set < h.sets.length) :
    Tracks (h.perform step).2 (addOrigin origins step) := by
  cases step with
  | newSet =>
    refine hT.concat (List.length_append ▸ Nat.le_add_right _ _) (by simp) (Nat.le_refl _)
      fun p hp => ?_
    -- Neither its series nor its number have been there before.
    obtain ⟨hsource, horigin⟩ := List.of_mem_zip hp
    have := hT.source_lt _ hsource
    have := hT.origin_lt _ horigin
    omega
  | copySet set =>
    have hmem := hT.mem_zip (hstep set rfl)
    exact hT.concat (Nat.le_refl _) (hT.sourceOf_lt (hstep set rfl))
      (Nat.le_of_lt (hT.origin_lt _ (List.of_mem_zip hmem).2)) fun p hp => hT.alike p hp _ hmem
  | observe | countError | requestCount | errorCount =>
    exact hT.of_sets_eq rfl (List.length_modify ..)
  | _ => exact hT.of_sets_eq rfl rfl

theorem after (hT : Tracks h origins) (hlegal : Legal h steps) :
    Tracks (h.after steps) (steps.foldl addOrigin origins) := by
  induction steps generalizing h origins with
  | nil => exact hT
  | cons step steps ih => exact ih (hT.perform hlegal.1) hlegal.2

/-- Sets record into the same series exactly when their origins are the same. -/
theorem sourceOf_eq_iff (hT : Tracks h origins) {set set' : Nat} (hset : set < h.sets.length)
    (hset' : set' < h.sets.length) :
    h.sourceOf set = h.sourceOf set' ↔ origins[set]? = origins[set']? := by
  have horigin : set < origins.length := hT.length ▸ hset
  have horigin' : set' < origins.length := hT.length ▸ hset'
  rw [List.getElem?_eq_getElem horigin, List.getElem?_eq_getElem horigin', Option.some_inj,
    ← List.getD_eq_getElem _ origins.length horigin,
    ← List.getD_eq_getElem _ origins.length horigin']
  exact hT.alike _ (hT.mem_zip hset) _ (hT.mem_zip hset')

end Tracks

/-! ## What a step does to the series -/

/-- The set through which a step changes series, and the change. Looking at a series may make it. -/
def Step.change? : Step → Option (Nat × (RequestMetrics → RequestMetrics))
  | .observe set endpoint method nanos => some (set, (·.observeLatency endpoint method nanos))
  | .countError set endpoint method status => some (set, (·.countError endpoint method status))
  | .requestCount set endpoint method => some (set, fun m => (m.requestCount endpoint method).2)
  | .errorCount set endpoint method status =>
    some (set, fun m => (m.errorCount endpoint method status).2)
  | _ => none

theorem metrics_record {set : Nat} (hset : h.sourceOf set < h.sources.length)
    (change : RequestMetrics → RequestMetrics) (source : Nat) :
    (h.record set change).metrics source =
      if h.sourceOf set = source then change (h.metrics source) else h.metrics source := by
  unfold metrics record
  rw [List.getD_eq_getElem?_getD, List.getElem?_modify, List.getD_eq_getElem?_getD]
  split
  · next heq =>
    subst heq
    rw [List.getElem?_eq_getElem hset]
    rfl
  · simp

/-- A source that is made now or never has no series yet. -/
theorem getD_concat_new (sources : List RequestMetrics) (source : Nat) :
    (sources ++ [RequestMetrics.new]).getD source .new = sources.getD source .new := by
  rw [List.getD_eq_getElem?_getD, List.getD_eq_getElem?_getD, List.getElem?_append]
  split
  · rfl
  · next hlt =>
    rw [List.getElem?_eq_none (Nat.le_of_not_lt hlt), List.getElem?_singleton]
    split <;> rfl

/-- The series of a source are changed by the changes through the sets that record there. -/
theorem metrics_perform (hstep : ∀ set ∈ step.set?, h.sourceOf set < h.sources.length)
    (source : Nat) :
    (h.perform step).2.metrics source =
      match step.change? with
      | some (set, change) =>
        if h.sourceOf set = source then change (h.metrics source) else h.metrics source
      | none => h.metrics source := by
  cases step with
  | observe set | countError set | requestCount set | errorCount set =>
    exact metrics_record (hstep set rfl) _ source
  | newSet => exact getD_concat_new h.sources source
  | _ => rfl

/-! ## Counts -/

/-- A count of series that starts at nothing and is raised by some steps, one by one. Idle steps and
steps that change no series are not among them. -/
structure Counter (count : RequestMetrics → Nat) (counts : Step → Bool) : Prop where
  fresh : count RequestMetrics.new = 0
  change : ∀ {step set change}, step.change? = some (set, change) →
    ∀ m, count (change m) = count m + if counts step then 1 else 0
  quiet : ∀ {step}, step.idle = true ∨ step.change? = none → counts step = false

section Counter

variable {count : RequestMetrics → Nat} {counts : Step → Bool}

theorem Counter.perform (hc : Counter count counts)
    (hstep : ∀ set ∈ step.set?, h.sourceOf set < h.sources.length) (source : Nat) :
    count ((h.perform step).2.metrics source) = count (h.metrics source) +
      if counts step && step.set?.any (h.sourceOf · = source) then 1 else 0 := by
  rw [metrics_perform hstep]
  cases hchange : step.change? with
  | none => simp [hc.quiet (.inr hchange)]
  | some p =>
    obtain ⟨set, change⟩ := p
    have hset : step.set? = some set := by
      cases step <;> cases hchange <;> rfl
    dsimp only
    rw [hset, Option.any_some]
    split
    · next heq => simp [hc.change hchange, heq]
    · next hne => simp [hne]

theorem Counter.after {origins : List Nat} (hc : Counter count counts) (hT : Tracks h origins)
    (hlegal : Legal h steps) (source : Nat) :
    count ((h.after steps).metrics source) = count (h.metrics source) +
      steps.countP fun step =>
        counts step && step.set?.any ((h.after steps).sourceOf · = source) := by
  induction steps generalizing h origins with
  | nil => rfl
  | cons step steps ih =>
    obtain ⟨hstep, hsteps⟩ := hlegal
    have hfirst := hc.perform (fun set hset => hT.sourceOf_lt (hstep set hset)) source
    have hrest := ih (hT.perform hstep) hsteps
    -- The set of the first step still records into the same series in the end.
    have hsource : step.set?.any ((h.after (step :: steps)).sourceOf · = source) =
        step.set?.any (h.sourceOf · = source) := by
      cases hset : step.set? with
      | none => rfl
      | some set => rw [Option.any_some, Option.any_some, sourceOf_after (hstep set hset)]
    rw [List.countP_cons, hsource]
    refine hrest.trans ?_
    rw [hfirst, Nat.add_assoc, Nat.add_comm (ite _ _ _)]
    rfl

/-- A count of a set's series is the number of steps that raise it through kin of the set. -/
theorem Counter.after_start (hc : Counter count counts) (hlegal : Legal start steps) {set : Nat}
    (hset : set < (start.after steps).sets.length) :
    count ((start.after steps).metrics ((start.after steps).sourceOf set)) =
      tally steps set counts := by
  have hT : Tracks (start.after steps) (origins steps) := Tracks.start.after hlegal
  have hfresh : start.metrics ((start.after steps).sourceOf set) = .new := getD_concat_new [] _
  rw [hc.after Tracks.start hlegal, hfresh, hc.fresh, Nat.zero_add]
  refine List.countP_congr fun step hmem => ?_
  cases hstep : step.set? with
  | none => rfl
  | some set' =>
    have hkin := hT.sourceOf_eq_iff (set_lt_of_mem hlegal hmem hstep) hset
    rw [Option.any_some, Option.any_some, Bool.and_eq_true, Bool.and_eq_true, decide_eq_true_eq,
      hkin, kin, beq_iff_eq, eq_comm (a := (origins steps)[set']?)]

end Counter

theorem counter_requests (endpoint method : String) :
    Counter (·.requests endpoint method) (·.observes (endpoint ++ method)) where
  fresh := rfl
  change {step set change} h m := by
    cases step with
    | observe set' e method' nanos =>
      cases h
      rw [RequestMetrics.requests_observeLatency, if_congr eq_comm rfl rfl]
      simp only [Step.observes, RequestMetrics.latencyKey_eq, beq_iff_eq]
    | requestCount set' e method' =>
      cases h
      exact m.requests_requestCount e method' endpoint method
    | countError | errorCount =>
      cases h
      rfl
    | _ => cases h
  quiet {step} h := by
    cases step with
    | observe => rcases h with h | h <;> cases h
    | _ => rfl

theorem counter_errors (endpoint method : String) (status : Nat) :
    Counter (·.errors endpoint method status)
      (·.fails (endpoint ++ method ++ Digits.decimal status)) where
  fresh := rfl
  change {step set change} h m := by
    cases step with
    | countError set' e method' status' =>
      cases h
      rw [RequestMetrics.errors_countError, if_congr eq_comm rfl rfl]
      simp only [Step.fails, RequestMetrics.failureKey_eq, RequestMetrics.latencyKey_eq, beq_iff_eq]
    | errorCount set' e method' status' =>
      cases h
      exact m.errors_errorCount e method' endpoint method status' status
    | observe | requestCount =>
      cases h
      rfl
    | _ => cases h
  quiet {step} h := by
    cases step with
    | countError => rcases h with h | h <;> cases h
    | _ => rfl

/-! ## Runs that differ in idle steps -/

theorem addOrigin_of_idle {step : Step} (h : step.idle = true) (origins : List Nat) :
    addOrigin origins step = origins := by
  cases step with
  | newSet | copySet => cases h
  | _ => rfl

theorem origins_filter (steps : List Step) : origins (steps.filter (!·.idle)) = origins steps := by
  rw [origins, List.foldl_filter]
  congr 1
  funext os step
  cases hidle : step.idle with
  | true => exact (addOrigin_of_idle hidle os).symm
  | false => rfl

variable {count : RequestMetrics → Nat} {counts : Step → Bool}

theorem Counter.tally_filter (hc : Counter count counts) (steps : List Step) (set : Nat) :
    tally (steps.filter (!·.idle)) set counts = tally steps set counts := by
  unfold tally kin
  rw [origins_filter, List.countP_filter]
  apply List.countP_congr
  intro step _
  cases hstep : step.idle with
  | true => simp [hc.quiet (.inl hstep)]
  | false => simp

theorem Counter.tally_congr (hc : Counter count counts) {steps' : List Step}
    (h : steps'.filter (!·.idle) = steps.filter (!·.idle)) (set : Nat) :
    tally steps' set counts = tally steps set counts := by
  rw [← hc.tally_filter steps', h, hc.tally_filter]

/-! ## Counts are histories -/

theorem requestCount_after (hlegal : Legal start steps) {set : Nat}
    (hset : set < (start.after steps).sets.length) (endpoint method : String) :
    ((start.after steps).perform (.requestCount set endpoint method)).1 =
      .count (tally steps set (·.observes (endpoint ++ method))) :=
  congrArg Answer.count ((counter_requests endpoint method).after_start hlegal hset)

theorem errorCount_after (hlegal : Legal start steps) {set : Nat}
    (hset : set < (start.after steps).sets.length) (endpoint method : String) (status : Nat) :
    ((start.after steps).perform (.errorCount set endpoint method status)).1 =
      .count (tally steps set (·.fails (endpoint ++ method ++ Digits.decimal status))) :=
  congrArg Answer.count ((counter_errors endpoint method status).after_start hlegal hset)

/-- Runs that differ in idle steps make the same sets. -/
theorem sets_length_congr {steps' : List Step} (hlegal : Legal start steps)
    (hlegal' : Legal start steps') (h : steps'.filter (!·.idle) = steps.filter (!·.idle)) :
    (start.after steps').sets.length = (start.after steps).sets.length := by
  rw [(Tracks.start.after hlegal).length, (Tracks.start.after hlegal').length]
  exact congrArg List.length ((origins_filter steps').symm.trans (h ▸ origins_filter steps))

/-- **Counts equal their history, across copies and separate sets.** After any run in which every
step is done with a set that there is, the count of requests that a set answers is the number of
latencies recorded through its kin under labels that read the same, and the count of errors that of
the failures counted so. A run that differs only in reads, registrations, encodings and the like has
the same sets, and every set answers the same counts after it. -/
theorem counts_of_history (steps : List Step) (hlegal : Legal start steps) (set : Nat)
    (hset : set < (start.after steps).sets.length) (endpoint method : String) (status : Nat) :
    let requests := Step.requestCount set endpoint method
    let errors := Step.errorCount set endpoint method status
    let hub := start.after steps
    (hub.perform requests).1 = .count (steps.countP fun step =>
        step.observes (endpoint ++ method) && step.set?.any (kin steps set)) ∧
      (hub.perform errors).1 = .count (steps.countP fun step =>
        step.fails (endpoint ++ method ++ Digits.decimal status) &&
          step.set?.any (kin steps set)) ∧
      ∀ steps', Legal start steps' → steps'.filter (!·.idle) = steps.filter (!·.idle) →
        (start.after steps').sets.length = hub.sets.length ∧
          ((start.after steps').perform requests).1 = (hub.perform requests).1 ∧
          ((start.after steps').perform errors).1 = (hub.perform errors).1 := by
  intro requests errors hub
  refine ⟨requestCount_after hlegal hset endpoint method,
    errorCount_after hlegal hset endpoint method status, fun steps' hlegal' hsame => ?_⟩
  have hsets := sets_length_congr hlegal hlegal' hsame
  have hset' : set < (start.after steps').sets.length := hsets ▸ hset
  refine ⟨hsets, ?_, ?_⟩
  · rw [requestCount_after hlegal' hset', (counter_requests endpoint method).tally_congr hsame]
    exact (requestCount_after hlegal hset endpoint method).symm
  · rw [errorCount_after hlegal' hset', (counter_errors endpoint method status).tally_congr hsame]
    exact (errorCount_after hlegal hset endpoint method status).symm

/-- The copy of a copy counts what was recorded through the first set, under other labels that read
the same, and nothing that was recorded through a set of its own; reads in between do not show. -/
theorem counts_of_copies :
    let made : List Step := [.copySet 0, .newSet, .copySet 1]
    let recorded : List Step := [.observe 0 "a" "bc" .zero, .observe 1 "ab" "c" .zero,
      .observe 2 "a" "bc" .zero, .countError 0 "a" "b" 400, .countError 3 "a" "b40" 0,
      .countError 2 "a" "b" 400]
    let strewn : List Step :=
      made ++ [.register 3 0, .requestCount 3 "a" "bc", .encode 0] ++ recorded
    let hub := start.after (made ++ recorded)
    Legal start (made ++ recorded) ∧ 3 < hub.sets.length ∧ Legal start strewn ∧
      (hub.perform (.requestCount 3 "" "abc")).1 = .count 2 ∧
      (hub.perform (.errorCount 3 "a" "b40" 0)).1 = .count 2 ∧
      ((start.after strewn).perform (.requestCount 3 "" "abc")).1 = .count 2 := by
  intro made recorded strewn hub
  have hlegal : Legal start (made ++ recorded) := by decide +kernel
  have hset : 3 < hub.sets.length := by decide +kernel
  have hstrewn : Legal start strewn := by decide +kernel
  obtain ⟨hrequests, -, hsame⟩ := counts_of_history _ hlegal 3 hset "" "abc" 0
  obtain ⟨-, herrors, -⟩ := counts_of_history _ hlegal 3 hset "a" "b40" 0
  have htwo := hrequests.trans (congrArg Answer.count (show _ = 2 by decide +kernel))
  exact ⟨hlegal, hset, hstrewn, htwo,
    herrors.trans (congrArg Answer.count (show _ = 2 by decide +kernel)),
    (hsame strewn hstrewn rfl).2.1.trans htwo⟩

end FrontDoor.Hub
