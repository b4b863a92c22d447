import FrontDoor.Door.Serve
import FrontDoor.Metrics.Scrape
import FrontDoor.Metrics.Shared
import FrontDoor.Service.Basic

/-!
# Services on one machine

A machine runs services in front of one store, and a scrape endpoint for their metrics. Requests
reach them through the addresses at which they listen, as far as connections can be made at all, or
in process, where it does not matter whether a service was started.
-/

namespace FrontDoor

/-- A service with the address at which it listened last. -/
structure Post where
  service : Service
  last? : Option SocketAddress
  deriving DecidableEq

/-- The post with its service in a new state. -/
def Post.withService (post : Post) (service : Service) : Post :=
  ⟨service, service.listening?.or post.last?⟩

/-- A machine: the door that its services share, the registry that its scrape endpoint shows, the
addresses in use, the services, and where the scrape endpoint listens. A service is made for a store
and a set of metrics. Only services made for the same ones are meant here, so that one door is
enough; services that keep stores of their own side by side are left out. -/
structure Host (σ : Type) where
  /-- What every service of the machine serves its requests with. -/
  door : Door σ
  registry : Registry
  table : AddressTable Listener
  posts : List Post
  next : Nat
  scrape? : Option SocketAddress
  /-- Whether connections can be made. -/
  connected : Bool

/-- Why a request gets no response of ours. -/
inductive ReachError where
  /-- There never was an address to send it to. -/
  | noAddress
  | networkUnreachable
  | connectionRefused
  /-- The program that listens there is none of ours, and what it answers is not told. -/
  | foreign
  deriving DecidableEq, Repr

def ReachError.message : ReachError → String
  | .noAddress => "no address"
  | .networkUnreachable => "NetworkUnreachable"
  | .connectionRefused => "ConnectionRefused"
  | .foreign => "another program listens there"

namespace Host

variable {σ : Type}

/-- What may be done with one of the services. -/
inductive ServiceStep where
  | start
  | close
  /-- Gives the service up. -/
  | drop
  /-- Adds a service at the address at which this one listened last. -/
  | twin
  /-- Sends a request in process. -/
  | submit (request : Except RequestError Request)
  | requestCount (method : String)
  | errorCount (method : String) (status : Nat)
  /-- Sends a request to the address of the service. -/
  | send (request : Except RequestError Request)
  /-- Starts the scrape endpoint at the address at which the service listened last. -/
  | bindScrape
  /-- Starts it there for a moment. -/
  | tryScrape

/-- A step on a machine. Services are named by their place among the posts. -/
inductive Step where
  | service (place : Nat) (step : ServiceStep)
  /-- Sends a request to the scrape endpoint. -/
  | scrape (request : Except RequestError Request)

inductive Answer where
  | done
  | outcome (r : Except ServiceError Unit)
  | scrapeOutcome (r : Except MetricsError SocketAddress)
  | added (i : Nat)
  | response (r : Except RequestError Response)
  | count (n : Nat)
  | reply (r : Except ReachError Response)
  /-- There is no such service. -/
  | noService

/-- Any free port of the machine itself. -/
def anyPort : SocketAddress := .v4 ⟨127, 0, 0, 1⟩ 0

/-- A machine with one service, whose metrics are registered. -/
def new (door : Door σ) (requested : SocketAddress) (connected : Bool) : Host σ where
  door := door
  registry := (Registry.new.register SharedMetrics.source).2
  table := .empty
  posts := [⟨.new 0 requested, none⟩]
  next := 1
  scrape? := none
  connected := connected

/-- The response as it is sent: without the body when only the head was asked for. -/
def sent (request : Request) (r : Response) : Response :=
  if request.method.name = "HEAD" then { r with body := [] } else r

/-- Who answers at an address. -/
def reach (h : Host σ) (a? : Option SocketAddress) : Except ReachError Listener :=
  match a? with
  | none => .error .noAddress
  | some a =>
    if !h.connected then .error .networkUnreachable
    else
      match h.table.listener? a with
      | some who => .ok who
      | none => .error .connectionRefused

/-- Sends a request to an address. What cannot be read is a bad request. -/
def sendTo (s : Store σ) (order : EntryOrder) (h : Host σ) (a? : Option SocketAddress)
    (request : Except RequestError Request) : Except ReachError Response × Host σ :=
  match h.reach a?, request with
  | .error e, _ => (.error e, h)
  | .ok .stranger, _ => (.error .foreign, h)
  | .ok _, .error _ => (.ok (Response.empty badRequest).withLength, h)
  | .ok .scrape, .ok request =>
    (.ok (Scrape.serve (h.registry.encode fun _ => h.door.metrics) request), h)
  | .ok (.service _), .ok request =>
    let (response, door) := h.door.serve s order request 0
    (.ok (sent request response), { h with door := door })

/-- Puts a post in its place, and the addresses in use. -/
def put (h : Host σ) (place : Nat) (post : Post) (table : AddressTable Listener) : Host σ :=
  { h with posts := h.posts.set place post, table := table }

/-- The machine after its metrics were looked at. -/
def withMetrics (h : Host σ) (metrics : RequestMetrics) : Host σ :=
  { h with door := { h.door with metrics := metrics } }

/-- Performs a step with the service of a post. -/
def performAt (s : Store σ) (order : EntryOrder) (h : Host σ) (place : Nat) (post : Post) :
    ServiceStep → Answer × Host σ
  | .start =>
    let (r, service, table) := post.service.start h.table
    (.outcome r, h.put place (post.withService service) table)
  | .close =>
    let (service, table) := post.service.close h.table
    (.done, h.put place (post.withService service) table)
  | .drop =>
    (.done, { h with posts := h.posts.eraseIdx place, table := post.service.endTask h.table })
  | .twin =>
    let twin : Post := ⟨.new h.next (post.last?.getD anyPort), none⟩
    (.added h.posts.length, { h with posts := h.posts ++ [twin], next := h.next + 1 })
  | .submit (.error e) => (.response (.error e), h)
  | .submit (.ok request) =>
    let (response, door) := h.door.serve s order request 0
    (.response (.ok response), { h with door := door })
  | .requestCount method =>
    let (n, metrics) := h.door.metrics.requestCount keyEndpoint method
    (.count n, h.withMetrics metrics)
  | .errorCount method status =>
    let (n, metrics) := h.door.metrics.errorCount keyEndpoint method status
    (.count n, h.withMetrics metrics)
  | .send request =>
    let (r, h) := h.sendTo s order post.last? request
    (.reply r, h)
  | .bindScrape =>
    let (r, table) := Scrape.bind h.table (post.last?.getD anyPort)
    (.scrapeOutcome r, { h with table := table, scrape? := r.toOption.or h.scrape? })
  | .tryScrape => (.scrapeOutcome (Scrape.bind h.table (post.last?.getD anyPort)).1, h)

def perform (s : Store σ) (order : EntryOrder) (h : Host σ) : Step → Answer × Host σ
  | .scrape request =>
    let (r, h) := h.sendTo s order h.scrape? request
    (.reply r, h)
  | .service place step =>
    match h.posts[place]? with
    | some post => h.performAt s order place post step
    | none => (.noService, h)

end Host

end FrontDoor
