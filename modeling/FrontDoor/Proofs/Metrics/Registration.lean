import FrontDoor.Proofs.Dictionary
import FrontDoor.Proofs.Metrics.History

/-!
# Registration

A registry keeps every collector under the name of its family (`Named`), so it holds no name twice.
Registering the metrics of requests takes the name of the latencies first: whatever becomes of it,
that name is taken afterwards (`requestsName_mem_register`). Names are never given back
(`names_after`), which is why a registry that has been tried once refuses every later set.
-/

namespace FrontDoor

namespace Registry

open RequestMetrics (requestsName errorsName)

/-- The names of the families that a registry holds. -/
def names (r : Registry) : List String := r.values.map Collector.name

/-- Every collector stands under the name of its family. -/
def Named (r : Registry) : Prop := ∀ e ∈ r.toList, e.2.name = e.1

variable {r : Registry}

theorem named_new : Named new := fun _ h => absurd h List.not_mem_nil

theorem Named.names_eq (h : Named r) : r.names = r.toList.map Prod.fst := by
  rw [names, Dictionary.values, List.map_map]
  exact List.map_congr_left h

theorem Named.nodup_names (h : Named r) : r.names.Nodup := by
  rw [h.names_eq]
  exact Dictionary.nodup_names r

theorem Named.mem_names_iff (h : Named r) {name : String} :
    name ∈ r.names ↔ r.contains name = true := by
  rw [h.names_eq, Dictionary.contains, Option.isSome_iff_exists]
  simp only [← Dictionary.mem_toList_iff, List.mem_map, Prod.exists, exists_and_right,
    exists_eq_right]

/-! ## One collector -/

theorem Named.insert (h : Named r) (c : Collector) : Named (Dictionary.insert r c.name c) := by
  rintro ⟨k, c'⟩ hmem
  rw [Dictionary.mem_toList_iff, Dictionary.get?_insert] at hmem
  split at hmem
  · next hk => cases hmem; exact hk.symm
  · exact h (k, c') (Dictionary.mem_toList_iff.mpr hmem)

theorem Named.mem_names_insert (h : Named r) (c : Collector) {name : String} :
    name ∈ names (Dictionary.insert r c.name c) ↔ name = c.name ∨ name ∈ r.names := by
  rw [(h.insert c).mem_names_iff, h.mem_names_iff, Dictionary.contains, Dictionary.get?_insert]
  split
  · next hname => simp [hname]
  · next hname => simp [hname, Dictionary.contains]

/-- A collector is taken in when its name is free. -/
theorem Named.add_eq (h : Named r) (c : Collector) :
    r.add c = if c.name ∈ r.names then (.error .alreadyRegistered, r)
      else (.ok (), r.insert c.name c) :=
  if_congr h.mem_names_iff.symm rfl rfl

theorem Named.add (h : Named r) (c : Collector) : Named (r.add c).2 := by
  rw [h.add_eq]
  split
  · exact h
  · exact h.insert c

theorem Named.names_subset_add (h : Named r) (c : Collector) : r.names ⊆ (r.add c).2.names := by
  rw [h.add_eq]
  split
  · exact List.Subset.refl _
  · exact fun name hname => (h.mem_names_insert c).mpr (.inr hname)

/-! ## The metrics of requests -/

/-- Both families are taken in when both names are free. When only that of the failures is taken,
the latencies are in by the time this shows, and stay. -/
theorem Named.register_eq (h : Named r) (source : Nat) :
    r.register source =
      if requestsName ∈ r.names then (.error .alreadyRegistered, r)
      else
        let r' := r.insert requestsName (.latencies source)
        if errorsName ∈ r.names then (.error .alreadyRegistered, r')
        else (.ok (), r'.insert errorsName (.failures source)) := by
  have hother : errorsName ≠ requestsName := by decide
  have hlatencies := h.insert (.latencies source)
  by_cases hrequests : requestsName ∈ r.names
  · have hadd : r.add (.latencies source) = (.error .alreadyRegistered, r) := by
      rw [h.add_eq]
      exact if_pos hrequests
    rw [if_pos hrequests, register, hadd]
  · have hadd : r.add (.latencies source) =
        (.ok (), r.insert requestsName (.latencies source)) := by
      rw [h.add_eq]
      exact if_neg hrequests
    have hiff : errorsName ∈ names (r.insert requestsName (.latencies source)) ↔
        errorsName ∈ r.names :=
      (h.mem_names_insert (.latencies source)).trans (or_iff_right hother)
    rw [if_neg hrequests, register, hadd]
    exact (hlatencies.add_eq (.failures source)).trans (if_congr hiff rfl rfl)

theorem Named.register (h : Named r) (source : Nat) : Named (r.register source).2 := by
  rw [h.register_eq]
  split_ifs
  · exact h
  · exact h.insert (.latencies source)
  · exact (h.insert (.latencies source)).insert (.failures source)

theorem Named.names_subset_register (h : Named r) (source : Nat) :
    r.names ⊆ (r.register source).2.names := by
  have hlatencies := h.insert (.latencies source)
  rw [h.register_eq]
  split_ifs <;> intro name hname
  · exact hname
  · exact (h.mem_names_insert (.latencies source)).mpr (.inr hname)
  · exact (hlatencies.mem_names_insert (.failures source)).mpr
      (.inr ((h.mem_names_insert (.latencies source)).mpr (.inr hname)))

/-- Whatever becomes of a registration, the name of the latencies is taken then. -/
theorem Named.requestsName_mem_register (h : Named r) (source : Nat) :
    requestsName ∈ (r.register source).2.names := by
  have hlatencies := h.insert (.latencies source)
  have hmem : requestsName ∈ names (Dictionary.insert r requestsName (.latencies source)) :=
    (h.mem_names_insert (.latencies source)).mpr (.inl rfl)
  rw [h.register_eq]
  split_ifs with hrequests herrors
  · exact hrequests
  · exact hmem
  · exact (hlatencies.mem_names_insert (.failures source)).mpr (.inr hmem)

end Registry

namespace Hub

open RequestMetrics (requestsName errorsName)

/-- The registry that a step is done with. -/
def Step.registry? : Step → Option Nat
  | .register _ i | .addCounter i _ _ _ | .addNameless i | .encode i | .scrape i _ => some i
  | _ => none

/-- Whether each step is done with a registry that there is. -/
def LegalRegistries : Hub → List Step → Prop
  | _, [] => True
  | h, step :: steps =>
    (∀ i ∈ step.registry?, i < h.registries.length) ∧ LegalRegistries (h.perform step).2 steps

instance decidableLegalRegistries : (h : Hub) → (steps : List Step) →
    Decidable (LegalRegistries h steps)
  | _, [] => .isTrue trivial
  | h, step :: steps =>
    have := decidableLegalRegistries (h.perform step).2 steps
    inferInstanceAs (Decidable ((∀ i ∈ step.registry?, i < h.registries.length) ∧ _))

/-- The steps of a run with their answers, in order. -/
def history : Hub → List Step → List (Step × Answer)
  | _, [] => []
  | h, step :: steps => (step, (h.perform step).1) :: history (h.perform step).2 steps

/-- Whether a step tries to register a set in a registry. -/
def Step.registersIn (i : Nat) : Step → Bool
  | .register _ j => j == i
  | _ => false

/-- Whether an answer says that a registration, or the like, went well. -/
def Answer.isOk : Answer → Bool
  | .outcome (.ok ()) => true
  | _ => false

/-- What a step does to a registry, and to which. -/
def Step.registryChange? (h : Hub) : Step → Option (Nat × (Registry → Registry))
  | .register set i => some (i, fun r => (r.register (h.sourceOf set)).2)
  | .addCounter i name help value => some (i, fun r => (r.add (.counter name help value)).2)
  | .addNameless i => some (i, fun r => (r.add .nameless).2)
  | _ => none

variable {h : Hub} {step : Step} {steps : List Step} {i : Nat}

theorem exists_of_registersIn (h : step.registersIn i) : ∃ set, step = .register set i := by
  cases step with
  | register set j => exact ⟨set, congrArg (Step.register set) (beq_iff_eq.mp h)⟩
  | _ => cases h

/-! ## Runs by their ends -/

theorem history_concat (h : Hub) (steps : List Step) (step : Step) :
    h.history (steps ++ [step]) =
      h.history steps ++ [(step, ((h.after steps).perform step).1)] := by
  induction steps generalizing h with
  | nil => rfl
  | cons first steps ih => exact congrArg ((first, (h.perform first).1) :: ·) (ih _)

theorem mem_of_mem_history {p : Step × Answer} (hmem : p ∈ h.history steps) : p.1 ∈ steps := by
  induction steps generalizing h with
  | nil => cases hmem
  | cons first steps ih =>
    rcases List.mem_cons.mp hmem with rfl | hmem
    · exact List.mem_cons_self
    · exact List.mem_cons_of_mem _ (ih hmem)

theorem legalRegistries_concat :
    LegalRegistries h (steps ++ [step]) ↔ LegalRegistries h steps ∧
      ∀ i ∈ step.registry?, i < (h.after steps).registries.length := by
  induction steps generalizing h with
  | nil => exact and_comm
  | cons first steps ih => exact (and_congr_right fun _ => ih).trans and_assoc.symm

/-! ## One step -/

theorem registry_putRegistry (h : Hub) (j : Nat) (r : Registry) (i : Nat) :
    (h.putRegistry j r).registry i =
      if j = i ∧ i < h.registries.length then r else h.registry i := by
  unfold registry putRegistry
  rw [List.getD_eq_getElem?_getD, List.getElem?_set, List.getD_eq_getElem?_getD]
  by_cases hj : j = i
  · subst hj
    by_cases hlt : j < h.registries.length
    · rw [if_pos rfl, if_pos hlt, if_pos ⟨rfl, hlt⟩]
      rfl
    · rw [if_pos rfl, if_neg hlt, if_neg fun hand => hlt hand.2,
        List.getElem?_eq_none (Nat.le_of_not_lt hlt)]
  · rw [if_neg hj, if_neg fun hand => hj hand.1]

/-- A step changes no registry but the one that it names. -/
theorem registry_perform (h : Hub) (step : Step) (i : Nat) :
    (h.perform step).2.registry i =
      match step.registryChange? h with
      | some (j, change) =>
        if j = i ∧ i < h.registries.length then change (h.registry i) else h.registry i
      | none => h.registry i := by
  have hput : ∀ j (change : Registry → Registry),
      (h.putRegistry j (change (h.registry j))).registry i =
        if j = i ∧ i < h.registries.length then change (h.registry i) else h.registry i := by
    intro j change
    rw [registry_putRegistry]
    split
    · next hand => rw [hand.1]
    · rfl
  cases step with
  | register set j => exact hput j fun r => (r.register (h.sourceOf set)).2
  | addCounter j name help value => exact hput j fun r => (r.add (.counter name help value)).2
  | addNameless j => exact hput j fun r => (r.add .nameless).2
  | newRegistry =>
    -- The new registry is what looking past the end has shown before.
    show (h.registries ++ [Registry.new]).getD i .new = h.registries.getD i .new
    rw [List.getD_eq_getElem?_getD, List.getD_eq_getElem?_getD, List.getElem?_append]
    split
    · rfl
    · next hlt =>
      rw [List.getElem?_eq_none (Nat.le_of_not_lt hlt), List.getElem?_singleton]
      split <;> rfl
  | _ => rfl

/-- Changes keep collectors under their names, and names in the registry. -/
theorem registryChange_spec {j : Nat} {change : Registry → Registry}
    (hchange : step.registryChange? h = some (j, change)) {r : Registry} (hr : r.Named) :
    (change r).Named ∧ r.names ⊆ (change r).names := by
  cases step with
  | register set => cases hchange; exact ⟨hr.register _, hr.names_subset_register _⟩
  | addCounter | addNameless => cases hchange; exact ⟨hr.add _, hr.names_subset_add _⟩
  | _ => cases hchange

theorem registry_perform_spec (hr : (h.registry i).Named) (step : Step) :
    ((h.perform step).2.registry i).Named ∧
      (h.registry i).names ⊆ ((h.perform step).2.registry i).names := by
  rw [registry_perform]
  cases hchange : step.registryChange? h with
  | none => exact ⟨hr, List.Subset.refl _⟩
  | some p =>
    dsimp only
    split
    · exact registryChange_spec hchange hr
    · exact ⟨hr, List.Subset.refl _⟩

/-! ## Runs -/

theorem named_start (i : Nat) : (start.registry i).Named := by
  have hnew : start.registry i = .new := by
    cases i <;> rfl
  rw [hnew]
  exact Registry.named_new

theorem registry_after_spec (hr : (h.registry i).Named) (steps : List Step) :
    ((h.after steps).registry i).Named ∧
      (h.registry i).names ⊆ ((h.after steps).registry i).names := by
  induction steps generalizing h with
  | nil => exact ⟨hr, List.Subset.refl _⟩
  | cons step steps ih =>
    obtain ⟨hnamed, hsubset⟩ := registry_perform_spec hr step
    obtain ⟨hnamed', hsubset'⟩ := ih hnamed
    exact ⟨hnamed', List.Subset.trans hsubset hsubset'⟩

/-- A registry in which a registration was tried has no room for another. -/
theorem requestsName_mem_after (hr : (h.registry i).Named) (hlegal : LegalRegistries h steps)
    (htried : steps.any (·.registersIn i)) :
    requestsName ∈ ((h.after steps).registry i).names := by
  induction steps generalizing h with
  | nil => cases htried
  | cons step steps ih =>
    obtain ⟨hnamed, -⟩ := registry_perform_spec hr step
    rw [List.any_cons, Bool.or_eq_true] at htried
    rcases htried with hfirst | hrest
    · obtain ⟨set, rfl⟩ := exists_of_registersIn hfirst
      refine (registry_after_spec hnamed steps).2 ?_
      rw [registry_perform]
      dsimp only [Step.registryChange?]
      rw [if_pos ⟨rfl, hlegal.1 i rfl⟩]
      exact hr.requestsName_mem_register _
    · exact ih hnamed hlegal.2 hrest

/-- What is answered to a set that wants to be registered, by the names that are taken. -/
theorem register_answer (hr : (h.registry i).Named) (set : Nat) :
    (h.perform (.register set i)).1 =
      .outcome (if requestsName ∈ (h.registry i).names ∨ errorsName ∈ (h.registry i).names
        then .error .alreadyRegistered else .ok ()) := by
  show Answer.outcome ((h.registry i).register (h.sourceOf set)).1 = _
  rw [hr.register_eq]
  by_cases hrequests : requestsName ∈ (h.registry i).names <;>
    by_cases herrors : errorsName ∈ (h.registry i).names <;> simp [hrequests, herrors]

theorem register_after_tried (hr : (h.registry i).Named) (hlegal : LegalRegistries h steps)
    (htried : steps.any (·.registersIn i)) (set : Nat) :
    ((h.after steps).perform (.register set i)).1 = .outcome (.error .alreadyRegistered) := by
  rw [register_answer (registry_after_spec hr steps).1,
    if_pos (.inl (requestsName_mem_after hr hlegal htried))]

/-- At most one registration into a registry goes well. -/
theorem countP_registered_le_one (hr : (h.registry i).Named) (hlegal : LegalRegistries h steps) :
    (h.history steps).countP (fun p => p.1.registersIn i && p.2.isOk) ≤ 1 := by
  -- From the end: when the last one goes well, none has been tried before.
  induction steps using List.reverseRecOn with
  | nil => exact Nat.zero_le 1
  | append_singleton steps step ih =>
    have hbefore := (legalRegistries_concat.mp hlegal).1
    rw [history_concat, List.countP_append, List.countP_singleton]
    split
    · next hgood =>
      obtain ⟨hlast, hok⟩ := (Bool.and_eq_true _ _).mp hgood
      obtain ⟨set, rfl⟩ := exists_of_registersIn hlast
      refine Nat.add_le_add_right (Nat.le_of_eq (List.countP_eq_zero.mpr fun p hp hfirst => ?_)) 1
      have htried : steps.any (·.registersIn i) :=
        List.any_eq_true.mpr ⟨p.1, mem_of_mem_history hp, ((Bool.and_eq_true _ _).mp hfirst).1⟩
      rw [register_after_tried hr hbefore htried] at hok
      cases hok
    · exact ih hbefore

/-- **Registration over whole runs.** After any run whose steps name registries that there are, a
registry holds every name once. A set is registered in it exactly when neither of its two names is
taken, and is told that a name is taken otherwise. A failure leaves everything as it was, but for
the latencies of the set when only the name of the failures was taken; no other registry is touched
either way. Once a registration was tried in a registry every later one fails, so that of all of
them at most one goes well. -/
theorem registration_after_run (steps : List Step) (hlegal : LegalRegistries start steps) (i : Nat)
    (hi : i < (start.after steps).registries.length) (set : Nat) :
    let hub := start.after steps
    let registry := hub.registry i
    let answer := (hub.perform (.register set i)).1
    let later := (hub.perform (.register set i)).2
    let latencies := Collector.latencies (hub.sourceOf set)
    let failures := Collector.failures (hub.sourceOf set)
    registry.names.Nodup ∧
      (answer = .outcome (.ok ()) ↔ requestsName ∉ registry.names ∧ errorsName ∉ registry.names) ∧
      (answer ≠ .outcome (.ok ()) → answer = .outcome (.error .alreadyRegistered)) ∧
      (answer = .outcome (.ok ()) → later.registry i =
        (registry.insert requestsName latencies).insert errorsName failures) ∧
      (answer ≠ .outcome (.ok ()) → later.registry i =
        if requestsName ∉ registry.names then registry.insert requestsName latencies
        else registry) ∧
      (∀ j, j ≠ i → later.registry j = hub.registry j) ∧
      (steps.any (·.registersIn i) → answer = .outcome (.error .alreadyRegistered)) ∧
      (start.history steps).countP (fun p => p.1.registersIn i && p.2.isOk) ≤ 1 := by
  intro hub registry answer later latencies failures
  have hnamed : registry.Named := (registry_after_spec (named_start i) steps).1
  have hanswer : answer = .outcome (if requestsName ∈ registry.names ∨ errorsName ∈ registry.names
      then .error .alreadyRegistered else .ok ()) := register_answer hnamed set
  have hlater : later.registry i = (registry.register (hub.sourceOf set)).2 :=
    (registry_perform hub (.register set i) i).trans (if_pos ⟨rfl, hi⟩)
  have hothers : ∀ j, j ≠ i → later.registry j = hub.registry j := fun j hj =>
    (registry_perform hub (.register set i) j).trans (if_neg fun hand => hj hand.1.symm)
  have htried : steps.any (·.registersIn i) → answer = .outcome (.error .alreadyRegistered) :=
    fun h => register_after_tried (named_start i) hlegal h set
  have hone := countP_registered_le_one (named_start i) hlegal
  rw [hnamed.register_eq] at hlater
  refine ⟨hnamed.nodup_names, ?_, ?_, ?_, ?_, hothers, htried, hone⟩ <;>
    rw [hanswer] <;> try rw [hlater]
  all_goals by_cases hrequests : requestsName ∈ registry.names <;>
    by_cases herrors : errorsName ∈ registry.names <;>
      simp [hrequests, herrors, latencies, failures]

/-- A copy is refused where its original was registered, and a set is refused for the sake of a
foreign counter, which costs it another attempt. -/
theorem registration_of_copies_and_strangers :
    let steps : List Step := [.copySet 0, .newSet, .newRegistry,
      .addCounter 1 "http_request_errors" "other" 7, .register 0 0, .register 2 1, .encode 1]
    let hub := start.after steps
    LegalRegistries start steps ∧ 0 < hub.registries.length ∧ 1 < hub.registries.length ∧
      (hub.perform (.register 1 0)).1 = .outcome (.error .alreadyRegistered) ∧
      (hub.perform (.register 1 1)).1 = .outcome (.error .alreadyRegistered) ∧
      (hub.registry 1).names = ["http_request_errors", "http_requests"] := by
  intro steps hub
  have hlegal : LegalRegistries start steps := by decide +kernel
  have hzero : 0 < hub.registries.length := by decide +kernel
  have hone : 1 < hub.registries.length := by decide +kernel
  obtain ⟨-, -, -, -, -, -, htried, -⟩ := registration_after_run steps hlegal 0 hzero 1
  obtain ⟨-, -, -, -, -, -, htried', -⟩ := registration_after_run steps hlegal 1 hone 1
  exact ⟨hlegal, hzero, hone, htried rfl, htried' rfl, by decide +kernel⟩

end Hub

end FrontDoor
