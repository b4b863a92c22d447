import FrontDoor.Door.Serve
import FrontDoor.Proofs.Recorder
import FrontDoor.Proofs.Route

/-!
# Runs of a door

A run is a list of visits, answered one after the other. One visit does what its route says
(`serve_of_key`, `serve_of_not_key`), and a visit about keys leaves its outcome: the store that the
outcome names, each failure counted and one latency, and a response whose status is the first
failure.
-/

namespace FrontDoor

theorem Method.ext {m m' : Method} (h : m.name = m'.name) : m = m' := by
  cases m
  cases m'
  cases h
  rfl

/-- A request as it is served: with the order in which the entries of its body are taken, and the
time it takes, in nanoseconds. -/
structure Visit where
  request : Request
  order : EntryOrder
  elapsed : Nat

/-- The methods that the key endpoint knows. -/
def Method.get : Method := ⟨"GET", by decide⟩
def Method.post : Method := ⟨"POST", by decide⟩
def Method.delete : Method := ⟨"DELETE", by decide⟩

/-- A visit with the texts of its path and its body, whose entries are taken by name. -/
def Visit.ofTexts (method : Method) (path body : String) : Visit :=
  ⟨⟨method, Utf8.encode path.toList, Utf8.encode body.toList⟩, .byName, 0⟩

namespace Door

variable {σ : Type}

/-- Answers a visit. -/
def visit (s : Store σ) (door : Door σ) (v : Visit) : Response × Door σ :=
  serve s v.order door v.request v.elapsed

/-- The door after some visits. -/
def after (s : Store σ) (door : Door σ) (visits : List Visit) : Door σ :=
  visits.foldl (fun door v => (visit s door v).2) door

theorem after_cons (s : Store σ) (door : Door σ) (v : Visit) (visits : List Visit) :
    after s door (v :: visits) = after s (visit s door v).2 visits := rfl

/-- The key that the path of a request carries; it is empty when there is none. -/
def keyOf (r : Request) : String := String.ofList (Route.keyOf (Route.readPath r.path))

/-- What answers a request. -/
def routeOf (r : Request) : Route := Route.resolve (Route.readPath r.path).text

variable (s : Store σ) (order : EntryOrder) (door : Door σ) (r : Request) (elapsed : Nat)

/-! ## One visit -/

/-- What the endpoint of a route answers to a request. -/
def answer : Route → Response × Door σ
  | .key => handleKey s order door r.method (keyOf r) r.body elapsed
  | .join => handleJoin s door r.body
  | .status => handleStatus s door
  | .unknown => (.empty notFound, door)

/-- A request is answered by the endpoint of its route. -/
theorem serve_eq :
    serve s order door r elapsed =
      ((answer s order door r elapsed (routeOf r)).1.withLength,
        (answer s order door r elapsed (routeOf r)).2) := by
  unfold serve routeOf
  dsimp only
  cases Route.resolve (Route.readPath r.path).text <;> rfl

theorem serve_of_key (h : Route.IsKeyPath r.path) :
    serve s order door r elapsed =
      ((handleKey s order door r.method (keyOf r) r.body elapsed).1.withLength,
        (handleKey s order door r.method (keyOf r) r.body elapsed).2) := by
  rw [serve_eq, routeOf, Route.resolve_eq_key_iff.mpr h]
  rfl

/-- Beside the key endpoint the door answers a join or a status, or nothing happens. -/
theorem serve_of_not_key (h : ¬Route.IsKeyPath r.path) :
    (serve s order door r elapsed).2 = (handleJoin s door r.body).2 ∨
      (serve s order door r elapsed).2 = (handleStatus s door).2 ∨
      (serve s order door r elapsed).2 = door := by
  rw [← Route.resolve_eq_key_iff] at h
  rw [serve_eq]
  cases hr : routeOf r with
  | key => exact absurd hr h
  | join => exact .inl rfl
  | status => exact .inr (.inl rfl)
  | unknown => exact .inr (.inr rfl)

/-- A join that can be read is handed to the store, whose answer decides the status. -/
theorem handleJoin_eq (body : Bytes) :
    handleJoin s door body =
      match (StringMap.read? body).bind joinFields? with
      | none => (.empty badRequest, door)
      | some fields =>
        (.empty (if (s.join door.store fields.1 fields.2).1.isOk then statusOk else internalError),
          { door with store := (s.join door.store fields.1 fields.2).2 }) := by
  unfold handleJoin
  cases (StringMap.read? body).bind joinFields? with
  | none => rfl
  | some fields =>
    dsimp only
    rcases s.join door.store fields.1 fields.2 with ⟨_ | _, st⟩ <;> rfl

theorem handleJoin_metrics (body : Bytes) : (handleJoin s door body).2.metrics = door.metrics := by
  rw [handleJoin_eq]
  split <;> rfl

theorem metrics_serve_of_not_key (h : ¬Route.IsKeyPath r.path) :
    (serve s order door r elapsed).2.metrics = door.metrics := by
  rcases serve_of_not_key s order door r elapsed h with h | h | h
  · rw [h, handleJoin_metrics]
  · rw [h]; rfl
  · rw [h]

/-! ## A request about keys -/

section Outcome

variable {s order} {st : σ} {method : Method} {key : String} {body : Bytes}

theorem keyOutcome_of_get (h : method.name = "GET") :
    keyOutcome s order st method key body = readKey s st key := by
  rw [keyOutcome, if_pos h]

theorem keyOutcome_of_post (h : method.name = "POST") :
    keyOutcome s order st method key body = writeKeys s order st body := by
  rw [keyOutcome, if_neg (by rw [h]; decide), if_pos h]

theorem keyOutcome_of_delete (h : method.name = "DELETE") :
    keyOutcome s order st method key body = removeKey s st key := by
  rw [keyOutcome, if_neg (by rw [h]; decide), if_neg (by rw [h]; decide), if_pos h]

theorem readKey_store : (readKey s st key).store = (s.get st key).2 := by
  unfold readKey
  rcases s.get st key with ⟨_ | _, st'⟩ <;> rfl

theorem removeKey_store :
    (removeKey s st key).store = if key = "" then st else (s.delete st key).2 := by
  unfold removeKey
  split
  · rfl
  · rcases s.delete st key with ⟨_ | _, st'⟩ <;> rfl

/-- The next entry is set, and the others are only when that did not fail. -/
theorem setAll_cons (value : String) (rest : List (String × String)) :
    setAll s st ((key, value) :: rest) =
      if (s.set st key value).1.isOk then setAll s (s.set st key value).2 rest
      else (false, (s.set st key value).2) := by
  rw [setAll]
  rcases s.set st key value with ⟨_ | _, st'⟩ <;> rfl

/-- Any other method is refused, and nothing is touched. -/
theorem keyOutcome_of_other (hget : method.name ≠ "GET") (hpost : method.name ≠ "POST")
    (hdelete : method.name ≠ "DELETE") :
    keyOutcome s order st method key body = ⟨[methodNotAllowed], none, st⟩ := by
  rw [keyOutcome, if_neg hget, if_neg hpost, if_neg hdelete]

end Outcome

variable (method : Method) (key : String) (body : Bytes)

theorem handleKey_store :
    (handleKey s order door method key body elapsed).2.store =
      (keyOutcome s order door.store method key body).store := rfl

theorem handleKey_metrics :
    (handleKey s order door method key body elapsed).2.metrics =
      (door.metrics.countErrors keyEndpoint method.name
        (keyOutcome s order door.store method key body).failures).observeLatency keyEndpoint
          method.name (.ofNat elapsed) := by
  simp only [handleKey, Recorder.failAll_start]
  rfl

/-- The first failure is the status of the response. -/
theorem handleKey_status :
    (handleKey s order door method key body elapsed).1.status =
      (keyOutcome s order door.store method key body).failures.head?.getD statusOk := by
  simp only [handleKey, Recorder.failAll_start]
  split <;> rfl

/-- The document is the body of the response, whatever the status. -/
theorem handleKey_body :
    (handleKey s order door method key body elapsed).1.body =
      (keyOutcome s order door.store method key body).document.getD [] := by
  simp only [handleKey, Recorder.failAll_start]
  split <;> simp_all [Recorder.respondWith, Recorder.respond, Response.empty, Response.ofContent]

/-! ## A visit about keys -/

/-- What becomes of a visit about keys. -/
def outcome (door : Door σ) (v : Visit) : Outcome σ :=
  keyOutcome s v.order door.store v.request.method (keyOf v.request) v.request.body

variable {v : Visit} (h : Route.IsKeyPath v.request.path)
include h

theorem visit_store : (visit s door v).2.store = (outcome s door v).store := by
  rw [visit, serve_of_key s v.order door v.request v.elapsed h]
  exact handleKey_store s v.order door v.elapsed v.request.method _ _

theorem visit_metrics :
    (visit s door v).2.metrics =
      (door.metrics.countErrors keyEndpoint v.request.method.name
        (outcome s door v).failures).observeLatency keyEndpoint v.request.method.name
          (.ofNat v.elapsed) := by
  rw [visit, serve_of_key s v.order door v.request v.elapsed h]
  exact handleKey_metrics s v.order door v.elapsed v.request.method _ _

theorem visit_status :
    (visit s door v).1.status = (outcome s door v).failures.head?.getD statusOk := by
  rw [visit, serve_of_key s v.order door v.request v.elapsed h]
  exact handleKey_status s v.order door v.elapsed v.request.method _ _

theorem visit_body : (visit s door v).1.body = (outcome s door v).document.getD [] := by
  rw [visit, serve_of_key s v.order door v.request v.elapsed h]
  exact handleKey_body s v.order door v.elapsed v.request.method _ _

end Door

end FrontDoor
