import FrontDoor.Proofs.Door.Opacity
import FrontDoor.Proofs.Service.Run

/-!
# What services answer

Of all that is done on a machine its door only hears the requests that are submitted in process or
reach a service at its address (`heard?`). It answers them as it would without any of the other
steps, and they leave it the same store and the same counts (`heard_after`): starting and closing
services decides which requests are heard, but not what is answered.
-/

namespace FrontDoor

/-- A store is like itself. -/
theorem Store.AlikeButErrors.rfl {σ : Type} {s : Store σ} : s.AlikeButErrors s Eq := by
  have hsame : ∀ {α : Type} (p : Except StoreError α × σ), SameCall Eq p p := by
    rintro α ⟨e | value, st⟩
    · exact .error e e (Eq.refl st)
    · exact .ok value (Eq.refl st)
  constructor
  case get => rintro a - ⟨⟩ key; exact hsame _
  case set => rintro a - ⟨⟩ key value; exact hsame _
  case delete => rintro a - ⟨⟩ key; exact hsame _
  case join => rintro a - ⟨⟩ nodeId addr; exact hsame _
  case status_text => rintro a - ⟨⟩; exact Eq.refl _
  case status_state => rintro a - ⟨⟩; exact Eq.refl _

theorem RequestMetrics.SameCounts.trans {m m' m'' : RequestMetrics} (h : SameCounts m m')
    (h' : SameCounts m' m'') : SameCounts m m'' where
  requests endpoint method := (h.requests endpoint method).trans (h'.requests endpoint method)
  errors endpoint method status :=
    (h.errors endpoint method status).trans (h'.errors endpoint method status)

namespace Host

open Door (SameDoor observations)
open RequestMetrics (SameCounts)

variable {σ : Type}

/-- The request that is answered at an address by the door of the services: one that can be read,
where a service listens. -/
def heardAt? (h : Host σ) (a? : Option SocketAddress) :
    Except RequestError Request → Option Request
  | .error _ => none
  | .ok request =>
    match h.reach a? with
    | .ok (.service _) => some request
    | .ok .scrape | .ok .stranger | .error _ => none

/-- The request that the door of the services hears in a step. -/
def heard? (h : Host σ) : Step → Option Request
  | .scrape request => h.heardAt? h.scrape? request
  | .service place (.submit request) => (h.posts[place]?).bind fun _ => request.toOption
  | .service place (.send request) =>
    (h.posts[place]?).bind fun post => h.heardAt? post.last? request
  | _ => none

/-- The requests that the door hears in a run, with the answers of the machine. -/
def heard (s : Store σ) (order : EntryOrder) : Host σ → List Step → List (Request × Answer)
  | _, [] => []
  | h, step :: steps =>
    ((h.heard? step).map fun request => (request, (h.perform s order step).1)).toList
      ++ heard s order (h.perform s order step).2 steps

/-- Whether an answer to a request brings a response, in process or as it is sent. -/
def Answer.Brings (request : Request) (response : Response) : Answer → Prop
  | .response r => r = .ok response
  | .reply r => r = .ok (sent request response)
  | _ => False

/-- A request as a visit, as quick as requests are on a machine. -/
def visitOf (order : EntryOrder) (request : Request) : Visit := ⟨request, order, 0⟩

variable (s : Store σ) (order : EntryOrder) {h : Host σ}

/-! ## One step -/

/-- A request that reaches the door is answered by it. -/
theorem sendTo_of_heard {a? : Option SocketAddress} {request : Except RequestError Request}
    {r : Request} (hheard : h.heardAt? a? request = some r) :
    (h.sendTo s order a? request).1 = .ok (sent r (Door.visit s h.door (visitOf order r)).1) ∧
      (h.sendTo s order a? request).2.door = (Door.visit s h.door (visitOf order r)).2 := by
  cases request with
  | error e => cases hheard
  | ok request =>
    unfold heardAt? at hheard
    unfold sendTo
    generalize h.reach a? = who at hheard ⊢
    obtain _ | who := who
    · cases hheard
    · cases who with
      | scrape | stranger => cases hheard
      | service number =>
        cases hheard
        exact ⟨rfl, rfl⟩

theorem sendTo_of_unheard {a? : Option SocketAddress} {request : Except RequestError Request}
    (hunheard : h.heardAt? a? request = none) : (h.sendTo s order a? request).2.door = h.door := by
  unfold heardAt? at hunheard
  unfold sendTo
  generalize h.reach a? = who at hunheard ⊢
  obtain _ | who := who
  · rfl
  · cases who with
    | stranger => rfl
    | scrape => cases request <;> rfl
    | service number =>
      cases request with
      | error e => rfl
      | ok request => cases hunheard

/-- What the door hears it answers, and nothing else happens to it. -/
theorem perform_of_heard {step : Step} {r : Request} (hheard : h.heard? step = some r) :
    (h.perform s order step).1.Brings r (Door.visit s h.door (visitOf order r)).1 ∧
      (h.perform s order step).2.door = (Door.visit s h.door (visitOf order r)).2 := by
  cases step with
  | scrape request => exact sendTo_of_heard s order hheard
  | service i step =>
    cases hpost : h.posts[i]? with
    | none => simp only [heard?] at hheard; cases step <;> simp [hpost] at hheard
    | some post =>
      rw [perform_of_post s order hpost]
      cases step with
      | submit request =>
        simp only [heard?, hpost, Option.bind_some] at hheard
        cases request with
        | error e => cases hheard
        | ok request => cases hheard; exact ⟨rfl, rfl⟩
      | send request =>
        simp only [heard?, hpost, Option.bind_some] at hheard
        exact sendTo_of_heard s order hheard
      | _ => cases hheard

/-- A step that the door does not hear leaves it the store and the counts. Looking at a count may
make a series, but counts nothing. -/
theorem perform_of_unheard {step : Step} (hunheard : h.heard? step = none) :
    SameDoor Eq (h.perform s order step).2.door h.door := by
  have hsame : SameDoor Eq h.door h.door := ⟨rfl, .rfl⟩
  have hsend : ∀ {a? request}, h.heardAt? a? request = none →
      SameDoor Eq (h.sendTo s order a? request).2.door h.door := by
    intro a? request hnone
    rw [sendTo_of_unheard s order hnone]
    exact hsame
  cases step with
  | scrape request => exact hsend hunheard
  | service i step =>
    cases hpost : h.posts[i]? with
    | none => rw [perform_of_no_post s order hpost]; exact hsame
    | some post =>
      rw [perform_of_post s order hpost]
      cases step with
      | submit request =>
        simp only [heard?, hpost, Option.bind_some] at hunheard
        cases request with
        | error e => exact hsame
        | ok request => cases hunheard
      | send request =>
        simp only [heard?, hpost, Option.bind_some] at hunheard
        exact hsend hunheard
      | requestCount method =>
        refine ⟨rfl, ⟨fun endpoint' method' => ?_, fun _ _ _ => rfl⟩⟩
        exact h.door.metrics.requests_requestCount keyEndpoint method endpoint' method'
      | errorCount method status =>
        refine ⟨rfl, ⟨fun _ _ => rfl, fun endpoint' method' status' => ?_⟩⟩
        exact h.door.metrics.errors_errorCount keyEndpoint method endpoint' method' status status'
      | _ => exact hsame

/-! ## Runs -/

/-- The answers to what a door hears in a run are those it would give to these requests alone, and
it is left with the same store and the same counts. -/
theorem heard_after {door : Door σ} (hdoor : SameDoor Eq h.door door) (steps : List Step) :
    let visits := (h.heard s order steps).map fun p => visitOf order p.1
    List.Forall₂ (fun p o => p.2.Brings p.1 o.response) (h.heard s order steps)
        (observations s door visits) ∧
      SameDoor Eq (h.after s order steps).door (Door.after s door visits) := by
  intro visits
  induction steps generalizing h door with
  | nil => exact ⟨.nil, hdoor⟩
  | cons step steps ih =>
    cases hheard : h.heard? step with
    | none =>
      have hquiet := perform_of_unheard s order hheard
      have hnext : SameDoor Eq (h.perform s order step).2.door door :=
        ⟨hquiet.store.trans hdoor.store, hquiet.metrics.trans hdoor.metrics⟩
      have hlist : h.heard s order (step :: steps) =
          heard s order (h.perform s order step).2 steps := by
        rw [heard, hheard]
        rfl
      subst visits
      rw [hlist]
      exact ih hnext
    | some r =>
      obtain ⟨hbrings, hnext⟩ := perform_of_heard s order hheard
      have hlike : s.AlikeButErrors s Eq := .rfl
      have hvisit : (visitOf order r).SameButTime (visitOf order r) := ⟨rfl, rfl⟩
      have hreply := Door.visit_alike hlike hdoor hvisit
      have hlist : h.heard s order (step :: steps) = (r, (h.perform s order step).1) ::
          heard s order (h.perform s order step).2 steps := by
        rw [heard, hheard]
        rfl
      obtain ⟨hanswers, hlast⟩ := ih (hnext ▸ hreply.door)
      subst visits
      rw [hlist]
      refine ⟨.cons ?_ hanswers, hlast⟩
      show Answer.Brings r (Door.visit s door (visitOf order r)).1 _
      rw [← hreply.response]
      exact hbrings

end Host

end FrontDoor
