import FrontDoor.Proofs.Service.Answers
import FrontDoor.Store.Memory

/-!
# The life of a service

`lifecycle_after_run`: after any run of a machine whose services had not been started before,
starting and closing do to each of them what `Lifecycle` says, and whatever is started and closed
on the way, the requests that were heard got the answers that they would have got without.
-/

namespace FrontDoor.Host

open Door (SameDoor)

variable {σ : Type}

/-- What starting and closing the service of a post does to a machine. -/
structure Lifecycle (s : Store σ) (order : EntryOrder) (h : Host σ) (i : Nat) (post : Post) :
    Prop where
  /-- The service tells an address exactly while its task runs there, and exactly while the address
  is bound by it. -/
  inStep : ∀ a, (post.service.listening? = some a ↔ post.service.task? = some ⟨a⟩) ∧
    (post.service.task? = some ⟨a⟩ ↔ h.table.listener? a = some (.service post.service.number))
  /-- No other service listens at its address. -/
  alone : ∀ j other a, h.posts[j]? = some other → post.service.listening? = some a →
    other.service.listening? = some a → j = i
  /-- A service that listens is told where it does, and nothing changes. -/
  startStarted : ∀ a, post.service.listening? = some a →
    h.perform s order (.service i .start) = (.outcome (.error (.alreadyStarted a)), h)
  /-- When no address is to be had, nothing changes. -/
  startFails : ∀ e, post.service.listening? = none →
    (h.table.bind post.service.requested (.service post.service.number)).1 = .error e →
    h.perform s order (.service i .start) = (.outcome (.error (.system e)), h)
  /-- Otherwise the service listens at an address that was free, and no other service is touched. -/
  startStopped : ∀ a, post.service.listening? = none →
    (h.table.bind post.service.requested (.service post.service.number)).1 = .ok a →
    let started := h.perform s order (.service i .start)
    started.1 = .outcome (.ok ()) ∧ h.table.listener? a = none ∧
      started.2.posts[i]? =
        some ⟨⟨post.service.number, post.service.requested, some a, some ⟨a⟩⟩, some a⟩ ∧
      (∀ j, j ≠ i → started.2.posts[j]? = h.posts[j]?) ∧
      ∀ b, started.2.table.listener? b =
        if b = a then some (.service post.service.number) else h.table.listener? b
  /-- No address is to be had exactly when all that would do are in use. -/
  bindFails :
    (∃ e, (h.table.bind post.service.requested (.service post.service.number)).1 = .error e) ↔
      ∀ a, AddressTable.Meets post.service.requested a → ∃ who, h.table.listener? a = some who
  /-- Closing a service that does not listen changes nothing. -/
  closeStopped : post.service.listening? = none →
    h.perform s order (.service i .close) = (.done, h)
  /-- Closing gives up the address of the service and no other. Closing again changes nothing, and
  the service can be started again. -/
  closeStarted : ∀ a, post.service.listening? = some a →
    let closed := (h.perform s order (.service i .close)).2
    closed.posts[i]? = some ⟨.new post.service.number post.service.requested, some a⟩ ∧
      (∀ j, j ≠ i → closed.posts[j]? = h.posts[j]?) ∧
      (∀ b, closed.table.listener? b = if b = a then none else h.table.listener? b) ∧
      closed.perform s order (.service i .close) = (.done, closed) ∧
      (closed.perform s order (.service i .start)).1 = .outcome (.ok ())
  /-- The store and the metrics have no part in it. -/
  door : ∀ step, step = .start ∨ step = .close →
    (h.perform s order (.service i step)).2.door = h.door

variable (s : Store σ) (order : EntryOrder) {h : Host σ} {i : Nat} {post : Post}

theorem put_self (hpost : h.posts[i]? = some post) : h.put i post h.table = h := by
  obtain ⟨hi, rfl⟩ := List.getElem?_eq_some_iff.mp hpost
  unfold put
  rw [List.set_getElem_self]

theorem getElem?_put (hpost : h.posts[i]? = some post) (post' : Post) (t : AddressTable Listener) :
    (h.put i post' t).posts[i]? = some post' :=
  List.getElem?_set_self (List.getElem?_eq_some_iff.mp hpost).1

theorem getElem?_put_ne {j : Nat} (hj : j ≠ i) (post' : Post) (t : AddressTable Listener) :
    (h.put i post' t).posts[j]? = h.posts[j]? :=
  List.getElem?_set_ne (Ne.symm hj)

/-- A start that leaves the service and the table as they are changes nothing at all. -/
theorem perform_start_of_error (ho : Orderly h) (hpost : h.posts[i]? = some post) {e : ServiceError}
    (hstart : post.service.start h.table = (.error e, post.service, h.table)) :
    h.perform s order (.service i .start) = (.outcome (.error e), h) := by
  rw [perform_of_post s order hpost, performAt, hstart]
  show (Answer.outcome (.error e), h.put i (post.withService post.service) h.table) = _
  rw [(ho.inStep hpost).withService_self, put_self hpost]

theorem perform_close (hpost : h.posts[i]? = some post) :
    h.perform s order (.service i .close) =
      (.done, h.put i ⟨.new post.service.number post.service.requested, post.last?⟩
        (post.service.endTask h.table)) := by
  rw [perform_of_post s order hpost]
  rfl

/-- A service that does not listen is as new, and closing it changes nothing. -/
theorem perform_close_of_stopped (ho : Orderly h) (hpost : h.posts[i]? = some post)
    (hstopped : post.service.listening? = none) :
    h.perform s order (.service i .close) = (.done, h) := by
  have hself := (ho.inStep hpost).withService_self
  have htask : post.service.task? = none := by
    rw [(ho.inStep hpost).task, hstopped]
    rfl
  have hclose := Service.close_of_idle (t := h.table) hstopped htask
  rw [perform_of_post s order hpost, performAt, hclose]
  show (Answer.done, h.put i (post.withService post.service) h.table) = _
  rw [hself, put_self hpost]

theorem Orderly.lifecycle (ho : Orderly h) (hpost : h.posts[i]? = some post) :
    Lifecycle s order h i post where
  inStep a := by
    have hstep := ho.inStep hpost
    have htask : post.service.listening? = some a ↔ post.service.task? = some ⟨a⟩ := by
      rw [hstep.task]
      cases post.service.listening? <;> simp
    exact ⟨htask, htask.symm.trans (hstep.bound a)⟩
  alone j other a hother hhere hthere := by
    refine ho.distinct hother hpost ?_
    have hbound := ((ho.inStep hpost).bound a).mp hhere
    rw [((ho.inStep hother).bound a).mp hthere] at hbound
    exact Listener.service.inj (Option.some.inj hbound)
  startStarted a hstarted :=
    perform_start_of_error s order ho hpost (Service.start_of_listening hstarted)
  startFails e hstopped hbind := by
    refine perform_start_of_error s order ho hpost (Service.start_of_error hstopped ?_)
    rcases h.table.bind_cases post.service.requested (.service post.service.number) with
      ⟨-, hfails⟩ | ⟨a, -, hok, -⟩
    · rw [hfails] at hbind ⊢
      cases hbind
      rfl
    · rw [hok] at hbind
      cases hbind
  startStopped a hstopped hbind := by
    rcases h.table.bind_cases post.service.requested (.service post.service.number) with
      ⟨-, hfails⟩ | ⟨b, hplace, hok, hlistener⟩
    · rw [hfails] at hbind
      cases hbind
    · rw [hok] at hbind
      cases hbind
      rw [perform_of_post s order hpost, performAt, Service.start_of_ok hstopped hok]
      exact ⟨rfl, AddressTable.listener?_of_place? hplace, getElem?_put hpost _ _,
        fun j hj => getElem?_put_ne hj _ _, hlistener⟩
  bindFails := AddressTable.bind_fails_iff _
  closeStopped hstopped := perform_close_of_stopped s order ho hpost hstopped
  closeStarted a hstarted := by
    have hstep := ho.inStep hpost
    have hlast := hstep.last a hstarted
    have hordered : Orderly (h.perform s order (.service i .close)).2 := ho.perform s order _
    rw [perform_close s order hpost, hlast] at hordered ⊢
    have hclosed := getElem?_put hpost
      ⟨.new post.service.number post.service.requested, some a⟩ (post.service.endTask h.table)
    refine ⟨hclosed, fun j hj => getElem?_put_ne hj _ _, fun b => ?_,
      perform_close_of_stopped s order hordered hclosed rfl, ?_⟩
    · refine (hstep.listener?_endTask b).trans ?_
      rw [hstarted]
      simp only [Option.some.injEq, eq_comm]
    · rw [perform_of_post s order hclosed]
      exact congrArg Answer.outcome (hstep.start_after_close hstarted)
  door step hstep := by
    rw [perform_of_post s order hpost]
    rcases hstep with rfl | rfl <;> rfl

/-- **The life of services.** Take a machine whose services were not started yet, and any run on it.
Afterwards every service tells an address exactly while its task runs and the address is bound by
it, and starting and closing do what `Lifecycle` says. The requests that services heard in the run
were answered as a door answers them to which nothing else ever happens, and the store and the
counts are those of such a door. All services of a machine share this door, with its store and its
metrics; nothing is said of services that do not. -/
theorem lifecycle_after_run (s : Store σ) (order : EntryOrder) (h : Host σ) (hfresh : Fresh h)
    (steps : List Step) :
    let heard := h.heard s order steps
    let visits := heard.map fun p => visitOf order p.1
    let later := h.after s order steps
    (∀ i post, later.posts[i]? = some post → Lifecycle s order later i post) ∧
      List.Forall₂ (fun p o => p.2.Brings p.1 o.response) heard
        (Door.observations s h.door visits) ∧
      later.door.store = (Door.after s h.door visits).store ∧
      later.door.metrics.SameCounts (Door.after s h.door visits).metrics := by
  intro heard visits later
  have ho : Orderly later := hfresh.orderly.after s order steps
  have hself : SameDoor Eq h.door h.door := ⟨rfl, .rfl⟩
  obtain ⟨hanswers, hstore, hcounts⟩ := heard_after s order hself steps
  exact ⟨fun i post hpost => ho.lifecycle s order hpost, hanswers, hstore, hcounts⟩

/-- Two services compete for an address, and the second gets it when the first is closed. What was
written through the first is read through the second. -/
theorem lifecycle_of_rivals :
    let address := SocketAddress.v4 ⟨127, 0, 0, 1⟩ 8080
    let machine : Host MemoryStore :=
      { door := ⟨.new "node0" "127.0.0.1:12000", .new⟩, registry := .new, table := .empty,
        posts := [⟨.new 0 address, none⟩, ⟨.new 1 address, none⟩, ⟨.new 2 anyPort, none⟩],
        next := 3, scrape? := none, connected := true }
    let write := Visit.ofTexts .post "/key" "\x7b\"a\":\"1\"\x7d"
    let read := Visit.ofTexts .get "/key/a" ""
    let steps : List Step := [.service 0 .start, .service 1 .start, .service 2 .start,
      .service 0 (.send (.ok write.request)), .service 0 .close, .service 1 .start,
      .service 1 (.send (.ok read.request))]
    let later := machine.after MemoryStore.store .byName steps
    let heard := machine.heard MemoryStore.store .byName steps
    Fresh machine ∧
      later.posts.map (·.service.listening?) = [none, some address, some (anyPort.withPort 32768)] ∧
      (∀ i post, later.posts[i]? = some post →
        Lifecycle MemoryStore.store .byName later i post) ∧
      later.perform MemoryStore.store .byName (.service 1 .start) =
        (.outcome (.error (.alreadyStarted address)), later) ∧
      heard.map (·.1) = [write.request, read.request] ∧
      List.Forall₂ (fun p o => p.2.Brings p.1 o.response) heard
        (Door.observations MemoryStore.store machine.door
          (heard.map fun p => visitOf .byName p.1)) := by
  intro address machine write read steps later heard
  have hfresh : Fresh machine :=
    ⟨by decide, by decide, by decide, fun e he => absurd he List.not_mem_nil⟩
  have hlistening : later.posts.map (·.service.listening?) =
      [none, some address, some (anyPort.withPort 32768)] := by decide +kernel
  obtain ⟨hlife, hanswers, -⟩ := lifecycle_after_run MemoryStore.store .byName machine hfresh steps
  have hpost : later.posts[1]? =
      some ⟨⟨1, address, some address, some ⟨address⟩⟩, some address⟩ := by
    decide +kernel
  have hheard : heard.map (·.1) = [write.request, read.request] := by decide +kernel
  have hstarted := (hlife 1 _ hpost).startStarted address rfl
  exact ⟨hfresh, hlistening, hlife, hstarted, hheard, hanswers⟩

end FrontDoor.Host
