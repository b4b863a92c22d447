import FrontDoor.Proofs.Address.Table
import FrontDoor.Service.Host

/-!
# Services and the addresses in use

A service in step with the table of addresses tells an address exactly while its task runs, and the
table knows it there and nowhere else (`Post.InStep`). Starting and closing keep the service in step
and concern no other listener, so on an orderly machine every step keeps all of them in step
(`Orderly.perform`).
-/

namespace FrontDoor

namespace Service

variable {service : Service} {t : AddressTable Listener} {a : SocketAddress}

theorem start_of_listening (h : service.listening? = some a) :
    service.start t = (.error (.alreadyStarted a), service, t) := by
  rw [start, h]

theorem start_of_error (h : service.listening? = none) {e : SystemError}
    (hbind : t.bind service.requested (.service service.number) = (.error e, t)) :
    service.start t = (.error (.system e), service, t) := by
  rw [start, h]
  dsimp only
  rw [hbind]

theorem start_of_ok (h : service.listening? = none)
    (hbind : (t.bind service.requested (.service service.number)).1 = .ok a) :
    service.start t = (.ok (), { service with listening? := some a, task? := some ⟨a⟩ },
      (t.bind service.requested (.service service.number)).2) := by
  rw [start, h]
  dsimp only
  generalize t.bind service.requested (.service service.number) = r at hbind ⊢
  obtain ⟨_ | b, t'⟩ := r
  · cases hbind
  · cases hbind
    rfl

/-- What a start does: it is refused and changes nothing, or the service listens at an address that
was free and is its own now. -/
theorem start_cases (service : Service) (t : AddressTable Listener) :
    (∃ e, service.start t = (.error e, service, t)) ∨
      ∃ a, service.listening? = none ∧ t.listener? a = none ∧
        AddressTable.Meets service.requested a ∧
        (service.start t).1 = .ok () ∧
        (service.start t).2.1 = { service with listening? := some a, task? := some ⟨a⟩ } ∧
        ∀ b, (service.start t).2.2.listener? b =
          if b = a then some (.service service.number) else t.listener? b := by
  cases hlistening : service.listening? with
  | some a => exact .inl ⟨_, start_of_listening hlistening⟩
  | none =>
    rcases t.bind_cases service.requested (.service service.number) with
      ⟨-, hbind⟩ | ⟨a, hplace, hok, hlistener⟩
    · exact .inl ⟨_, start_of_error hlistening hbind⟩
    · refine .inr ⟨a, rfl, AddressTable.listener?_of_place? hplace,
        AddressTable.meets_of_place? hplace, ?_⟩
      rw [start_of_ok hlistening hok]
      exact ⟨rfl, rfl, hlistener⟩

/-- Closing a service that does not listen and has no task changes nothing. -/
theorem close_of_idle (h : service.listening? = none) (htask : service.task? = none) :
    service.close t = (service, t) := by
  obtain ⟨number, requested, listening?, task?⟩ := service
  cases h
  cases htask
  rfl

end Service

namespace Post

/-- A service tells an address exactly while a task serves there, and the table of the addresses in
use knows it there, and nowhere else. The address is one that it asked for. -/
structure InStep (t : AddressTable Listener) (post : Post) : Prop where
  task : post.service.task? = post.service.listening?.map ServingTask.mk
  bound : ∀ a, post.service.listening? = some a ↔
    t.listener? a = some (.service post.service.number)
  last : ∀ a, post.service.listening? = some a → post.last? = some a
  meets : ∀ a, post.service.listening? = some a → AddressTable.Meets post.service.requested a

namespace InStep

variable {post : Post} {t t' : AddressTable Listener} {a : SocketAddress}

/-- Only the places of the service itself matter. -/
theorem congr (h : post.InStep t)
    (hsame : ∀ a, t'.listener? a = some (.service post.service.number) ↔
      t.listener? a = some (.service post.service.number)) : post.InStep t' where
  task := h.task
  bound a := (h.bound a).trans (hsame a).symm
  last := h.last
  meets := h.meets

theorem withService_self (h : post.InStep t) : post.withService post.service = post := by
  obtain ⟨service, last?⟩ := post
  have hlast := h.last
  cases hlistening : service.listening? with
  | none => simp [withService, hlistening]
  | some a =>
    obtain rfl := hlast a hlistening
    simp [withService, hlistening]

/-- Ending the task gives up the address at which the service listens, and no other one. -/
theorem listener?_endTask (h : post.InStep t) (b : SocketAddress) :
    (post.service.endTask t).listener? b =
      if post.service.listening? = some b then none else t.listener? b := by
  unfold Service.endTask
  rw [h.task]
  cases post.service.listening? with
  | none => rfl
  | some a =>
    show (t.release a).listener? b = _
    rw [AddressTable.listener?_release]
    simp only [Option.some.injEq, eq_comm]

/-- The other listeners stay where they are. -/
theorem listener?_endTask_iff (h : post.InStep t) {who : Listener}
    (hwho : who ≠ .service post.service.number) (b : SocketAddress) :
    (post.service.endTask t).listener? b = some who ↔ t.listener? b = some who := by
  rw [h.listener?_endTask]
  split
  · next hb =>
    rw [(h.bound b).mp hb]
    exact iff_of_false (fun hnone => nomatch hnone) fun heq => hwho (Option.some.inj heq).symm
  · rfl

/-- Once its task has ended, a service is bound nowhere. -/
theorem listener?_endTask_ne (h : post.InStep t) (b : SocketAddress) :
    (post.service.endTask t).listener? b ≠ some (.service post.service.number) := by
  rw [h.listener?_endTask]
  split
  · exact fun hnone => nomatch hnone
  · next hb => exact fun hbound => hb ((h.bound b).mpr hbound)

theorem close (h : post.InStep t) :
    (post.withService (post.service.close t).1).InStep (post.service.close t).2 where
  task := rfl
  bound b := iff_of_false (fun hnone => nomatch hnone) (h.listener?_endTask_ne b)
  last _ hnone := nomatch hnone
  meets _ hnone := nomatch hnone

/-- Starting keeps a service in step and moves no other listener. -/
theorem start (h : post.InStep t) :
    (post.withService (post.service.start t).2.1).InStep (post.service.start t).2.2 ∧
      (post.service.start t).2.1.number = post.service.number ∧
      ∀ who, who ≠ .service post.service.number → ∀ b,
        (post.service.start t).2.2.listener? b = some who ↔ t.listener? b = some who := by
  rcases post.service.start_cases t with
    ⟨e, hstart⟩ | ⟨a, hidle, hfree, hmeets, -, hservice, hlistener⟩
  · rw [hstart]
    exact ⟨by rw [h.withService_self]; exact h, rfl, fun who _ b => Iff.rfl⟩
  · rw [hservice]
    refine ⟨⟨rfl, fun b => ?_, fun b hb => hb, fun b hb => ?_⟩, rfl, fun who hwho b => ?_⟩
    · show some a = some b ↔ _
      rw [hlistener]
      split
      · next hb => exact iff_of_true (congrArg some hb.symm) rfl
      · next hb =>
        refine iff_of_false (fun heq => hb (Option.some.inj heq).symm) fun hbound => ?_
        rw [(h.bound b).mpr hbound] at hidle
        cases hidle
    · cases hb
      exact hmeets
    · rw [hlistener]
      split
      · next hb =>
        subst hb
        rw [hfree]
        exact iff_of_false (fun heq => hwho (Option.some.inj heq).symm) fun hnone => nomatch hnone
      · rfl

/-- A service that was closed can be started again. -/
theorem start_after_close (h : post.InStep t) (hlistening : post.service.listening? = some a) :
    ((post.service.close t).1.start (post.service.close t).2).1 = .ok () := by
  have hfree : (post.service.close t).2.listener? a = none := by
    show (post.service.endTask t).listener? a = none
    rw [h.listener?_endTask, if_pos hlistening]
  obtain ⟨b, hplace⟩ := AddressTable.exists_place?_of_meets (h.meets a hlistening) hfree
  obtain ⟨hok, -⟩ := AddressTable.bind_of_place?_some hplace (.service post.service.number)
  have hclosed : (post.service.close t).1.listening? = none := rfl
  exact congrArg Prod.fst (Service.start_of_ok hclosed hok)

end InStep

end Post

namespace Host

variable {σ : Type}

/-- The machine after some steps. -/
def after (s : Store σ) (order : EntryOrder) (h : Host σ) (steps : List Step) : Host σ :=
  steps.foldl (fun h step => (h.perform s order step).2) h

/-- A machine on which no service was started yet: the services have numbers of their own, and none
of them listens anywhere. -/
structure Fresh (h : Host σ) : Prop where
  stopped : ∀ post ∈ h.posts, post.service = .new post.service.number post.service.requested
  numbers : (h.posts.map fun post => post.service.number).Nodup
  number_lt : ∀ post ∈ h.posts, post.service.number < h.next
  table : ∀ e ∈ h.table.entries, ∀ n, e.2 ≠ .service n

/-- All services are in step with the addresses in use. Numbers are given out once. -/
structure Orderly (h : Host σ) : Prop where
  inStep : ∀ {i : Nat} {post : Post}, h.posts[i]? = some post → post.InStep h.table
  distinct : ∀ {i j : Nat} {p q : Post}, h.posts[i]? = some p → h.posts[j]? = some q →
    p.service.number = q.service.number → i = j
  number_lt : ∀ {i : Nat} {post : Post}, h.posts[i]? = some post → post.service.number < h.next
  listener_lt : ∀ {a : SocketAddress} {n : Nat},
    h.table.listener? a = some (.service n) → n < h.next

variable {h : Host σ}

/-! ## Steps -/

section Steps

variable (s : Store σ) (order : EntryOrder)

theorem perform_of_post {i : Nat} {post : Post} (hpost : h.posts[i]? = some post)
    (step : ServiceStep) :
    h.perform s order (.service i step) = h.performAt s order i post step := by
  rw [perform, hpost]

theorem perform_of_no_post {i : Nat} (hpost : h.posts[i]? = none) (step : ServiceStep) :
    h.perform s order (.service i step) = (.noService, h) := by
  rw [perform, hpost]

/-- Sending a request touches nothing but the door. -/
theorem exists_door_sendTo (h : Host σ) (a? : Option SocketAddress)
    (request : Except RequestError Request) :
    ∃ door, (h.sendTo s order a? request).2 = { h with door := door } := by
  unfold sendTo
  split
  · exact ⟨h.door, rfl⟩
  · exact ⟨h.door, rfl⟩
  · exact ⟨h.door, rfl⟩
  · exact ⟨h.door, rfl⟩
  · exact ⟨_, rfl⟩

end Steps

/-! ## Orderly machines -/

theorem Fresh.orderly (hfresh : Fresh h) : Orderly h where
  inStep {i post} hpost := by
    have hstopped := hfresh.stopped post (List.mem_of_getElem? hpost)
    refine ⟨?_, fun a => ?_, fun a ha => ?_, fun a ha => ?_⟩
    · rw [hstopped]
      rfl
    · rw [hstopped]
      refine iff_of_false (fun hnone => nomatch hnone) fun hbound => ?_
      obtain ⟨e, he, hwho⟩ := AddressTable.exists_entry_of_listener hbound
      exact hfresh.table e he _ hwho
    all_goals
      rw [hstopped] at ha
      cases ha
  distinct {i j p q} hp hq heq := by
    have hi : (h.posts.map fun post => post.service.number)[i]? = some p.service.number := by
      rw [List.getElem?_map, hp]
      rfl
    have hj : (h.posts.map fun post => post.service.number)[j]? = some p.service.number := by
      rw [List.getElem?_map, hq, heq]
      rfl
    exact (List.getElem?_inj (List.getElem?_eq_some_iff.mp hi).1 hfresh.numbers).mp
      (hi.trans hj.symm)
  number_lt {i post} hpost := hfresh.number_lt post (List.mem_of_getElem? hpost)
  listener_lt {a n} hbound := by
    obtain ⟨e, he, hwho⟩ := AddressTable.exists_entry_of_listener hbound
    exact absurd hwho (hfresh.table e he n)

namespace Orderly

/-- Services of different places have different numbers. -/
theorem number_ne (ho : Orderly h) {i j : Nat} {p q : Post} (hp : h.posts[i]? = some p)
    (hq : h.posts[j]? = some q) (hne : i ≠ j) : p.service.number ≠ q.service.number :=
  fun heq => hne (ho.distinct hp hq heq)

/-- A step that touches neither services nor addresses. -/
theorem of_eq (ho : Orderly h) {h' : Host σ} (hposts : h'.posts = h.posts)
    (htable : h'.table = h.table) (hnext : h'.next = h.next) : Orderly h' where
  inStep hpost := htable ▸ ho.inStep (hposts ▸ hpost)
  distinct hp hq heq := ho.distinct (hposts ▸ hp) (hposts ▸ hq) heq
  number_lt hpost := hnext ▸ ho.number_lt (hposts ▸ hpost)
  listener_lt hbound := hnext ▸ ho.listener_lt (htable ▸ hbound)

/-- A service in a new state that is in step, where no other service is moved. -/
theorem put (ho : Orderly h) {i : Nat} {post post' : Post} {t : AddressTable Listener}
    (hpost : h.posts[i]? = some post) (hnumber : post'.service.number = post.service.number)
    (hstep : post'.InStep t)
    (hothers : ∀ who, who ≠ .service post.service.number → ∀ a,
      t.listener? a = some who ↔ h.table.listener? a = some who) :
    Orderly (h.put i post' t) := by
  -- Whoever stands at a place now has the number of the service that stood there before.
  have hbefore : ∀ {j : Nat} {q : Post}, (h.posts.set i post')[j]? = some q →
      (j = i ∧ q = post') ∨ (j ≠ i ∧ h.posts[j]? = some q) := by
    intro j q hq
    rw [List.getElem?_set] at hq
    split at hq
    · next hj =>
      rw [if_pos (List.getElem?_eq_some_iff.mp hpost).1] at hq
      exact .inl ⟨hj.symm, (Option.some.inj hq).symm⟩
    · next hj => exact .inr ⟨Ne.symm hj, hq⟩
  have hformer : ∀ {j : Nat} {q : Post}, (h.posts.set i post')[j]? = some q →
      ∃ p, h.posts[j]? = some p ∧ q.service.number = p.service.number := by
    intro j q hq
    rcases hbefore hq with ⟨rfl, rfl⟩ | ⟨-, hq⟩
    · exact ⟨post, hpost, hnumber⟩
    · exact ⟨q, hq, rfl⟩
  constructor
  case inStep =>
    intro j q hq
    rcases hbefore hq with ⟨-, rfl⟩ | ⟨hj, hq⟩
    · exact hstep
    · have hne := ho.number_ne hq hpost hj
      exact (ho.inStep hq).congr (hothers _ fun heq => hne (Listener.service.inj heq))
  case distinct =>
    intro j k p q hp hq heq
    obtain ⟨p', hp', hpn⟩ := hformer hp
    obtain ⟨q', hq', hqn⟩ := hformer hq
    exact ho.distinct hp' hq' (by rw [← hpn, ← hqn, heq])
  case number_lt =>
    intro j q hq
    obtain ⟨q', hq', hqn⟩ := hformer hq
    rw [hqn]
    exact ho.number_lt hq'
  case listener_lt =>
    intro a n hbound
    by_cases hn : n = post.service.number
    · rw [hn]
      exact ho.number_lt hpost
    · exact ho.listener_lt
        ((hothers _ (fun heq => hn (Listener.service.inj heq)) a).mp hbound)

/-- A service that is given up with its task. -/
theorem erase (ho : Orderly h) {i : Nat} {post : Post} (hpost : h.posts[i]? = some post) :
    Orderly { h with posts := h.posts.eraseIdx i, table := post.service.endTask h.table } := by
  have hstep := ho.inStep hpost
  -- The services behind it move up by one place.
  have hbefore : ∀ {j : Nat} {q : Post}, (h.posts.eraseIdx i)[j]? = some q →
      ∃ k, k ≠ i ∧ h.posts[k]? = some q ∧ k = if j < i then j else j + 1 := by
    intro j q hq
    rw [List.getElem?_eraseIdx] at hq
    split at hq
    · next hj => exact ⟨j, by omega, hq, (if_pos hj).symm⟩
    · next hj => exact ⟨j + 1, by omega, hq, (if_neg hj).symm⟩
  constructor
  case inStep =>
    intro j q hq
    obtain ⟨k, hk, hq, -⟩ := hbefore hq
    have hne := ho.number_ne hq hpost hk
    exact (ho.inStep hq).congr
      (hstep.listener?_endTask_iff fun heq => hne (Listener.service.inj heq))
  case distinct =>
    intro j k p q hp hq heq
    obtain ⟨j', -, hp, hj⟩ := hbefore hp
    obtain ⟨k', -, hq, hk⟩ := hbefore hq
    have hplaces := ho.distinct hp hq heq
    split at hj <;> split at hk <;> omega
  case number_lt =>
    intro j q hq
    obtain ⟨k, -, hq, -⟩ := hbefore hq
    exact ho.number_lt hq
  case listener_lt =>
    intro a n hbound
    by_cases hn : n = post.service.number
    · rw [hn]
      exact ho.number_lt hpost
    · exact ho.listener_lt
        ((hstep.listener?_endTask_iff (fun heq => hn (Listener.service.inj heq)) a).mp hbound)

/-- A new service, which has the next number and listens nowhere. -/
theorem append (ho : Orderly h) (requested : SocketAddress) :
    Orderly { h with posts := h.posts ++ [⟨.new h.next requested, none⟩], next := h.next + 1 } := by
  have hlast : ∀ {j : Nat} {q : Post}, (h.posts ++ [⟨.new h.next requested, none⟩])[j]? = some q →
      (h.posts[j]? = some q ∧ q.service.number < h.next) ∨
        (j = h.posts.length ∧ q = ⟨.new h.next requested, none⟩) := by
    intro j q hq
    rw [List.getElem?_append] at hq
    split at hq
    · exact .inl ⟨hq, ho.number_lt hq⟩
    · next hj =>
      rw [List.getElem?_singleton] at hq
      split at hq
      · exact .inr ⟨by omega, (Option.some.inj hq).symm⟩
      · cases hq
  constructor
  case inStep =>
    intro j q hq
    rcases hlast hq with ⟨hq, -⟩ | ⟨-, rfl⟩
    · exact ho.inStep hq
    · refine ⟨rfl, fun a => ?_, (fun _ hnone => nomatch hnone), fun _ hnone => nomatch hnone⟩
      refine iff_of_false (fun hnone => nomatch hnone) fun hbound => ?_
      exact absurd (ho.listener_lt hbound) (Nat.lt_irrefl _)
  case distinct =>
    intro j k p q hp hq heq
    rcases hlast hp with ⟨hp, hpn⟩ | ⟨hj, rfl⟩ <;> rcases hlast hq with ⟨hq, hqn⟩ | ⟨hk, rfl⟩
    · exact ho.distinct hp hq heq
    · exact absurd heq (Nat.ne_of_lt hpn)
    · exact absurd heq.symm (Nat.ne_of_lt hqn)
    · rw [hj, hk]
  case number_lt =>
    intro j q hq
    rcases hlast hq with ⟨-, hqn⟩ | ⟨-, rfl⟩
    · exact Nat.lt_succ_of_lt hqn
    · exact Nat.lt_succ_self _
  case listener_lt =>
    intro a n hbound
    exact Nat.lt_succ_of_lt (ho.listener_lt hbound)

/-- The scrape endpoint, bound at a free address, moves no service. -/
theorem bindScrape (ho : Orderly h) (a : SocketAddress) (scrape? : Option SocketAddress) :
    Orderly { h with table := (h.table.bind a .scrape).2, scrape? := scrape? } := by
  have hservices : ∀ n b, (h.table.bind a .scrape).2.listener? b = some (.service n) ↔
      h.table.listener? b = some (.service n) := by
    intro n b
    rcases h.table.bind_cases a .scrape with ⟨-, hbind⟩ | ⟨c, hplace, -, hlistener⟩
    · rw [hbind]
    · rw [hlistener]
      split
      · next hb =>
        rw [hb, AddressTable.listener?_of_place? hplace]
        exact iff_of_false (fun heq => nomatch heq) fun hnone => nomatch hnone
      · rfl
  exact ⟨fun hpost => (ho.inStep hpost).congr (hservices _), ho.distinct, ho.number_lt,
    fun hbound => ho.listener_lt ((hservices _ _).mp hbound)⟩

/-- Whatever is done on an orderly machine, it stays orderly. -/
theorem perform (ho : Orderly h) (s : Store σ) (order : EntryOrder) (step : Step) :
    Orderly (h.perform s order step).2 := by
  have hsend : ∀ a? request, Orderly (h.sendTo s order a? request).2 := by
    intro a? request
    obtain ⟨door, hdoor⟩ := exists_door_sendTo s order h a? request
    rw [hdoor]
    exact ho.of_eq rfl rfl rfl
  cases step with
  | scrape request => exact hsend h.scrape? request
  | service i step =>
    cases hpost : h.posts[i]? with
    | none => rwa [perform_of_no_post s order hpost]
    | some post =>
      rw [perform_of_post s order hpost]
      have hstep := ho.inStep hpost
      cases step with
      | start =>
        obtain ⟨hstarted, hnumber, hothers⟩ := hstep.start
        exact ho.put hpost hnumber hstarted hothers
      | close =>
        exact ho.put hpost rfl hstep.close fun who hwho => hstep.listener?_endTask_iff hwho
      | drop => exact ho.erase hpost
      | twin => exact ho.append _
      | submit request =>
        cases request with
        | error e => exact ho
        | ok request => exact ho.of_eq rfl rfl rfl
      | requestCount | errorCount => exact ho.of_eq rfl rfl rfl
      | send request => exact hsend post.last? request
      | bindScrape => exact ho.bindScrape _ _
      | tryScrape => exact ho

theorem after (ho : Orderly h) (s : Store σ) (order : EntryOrder) (steps : List Step) :
    Orderly (h.after s order steps) := by
  induction steps generalizing h with
  | nil => exact ho
  | cons step steps ih => exact ih (ho.perform s order step)

end Orderly

end Host

end FrontDoor
