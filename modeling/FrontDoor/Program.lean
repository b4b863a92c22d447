import FrontDoor.CommandLine.Invocation
import FrontDoor.Console.Paint
import FrontDoor.Load.Report
import FrontDoor.Service.Host
import FrontDoor.Store.Memory

/-!
# The program

What the program says, and how it ends, as far as this depends on the command line, the file of
settings, the environment and the addresses in use. A node says that it serves and goes on; all
else ends by itself.
-/

namespace FrontDoor

/-- How a run ends: what it said on either output, and its exit status. -/
structure Ending where
  output : String
  errors : String
  status : Nat
  deriving DecidableEq, Repr

/-- What becomes of the serve command: it ends at once, or a machine serves after some words. -/
inductive ServeOutcome where
  | ended (e : Ending)
  | serving (output : String) (address : SocketAddress) (host : Host MemoryStore)

namespace Program

/-- The report of an error with its causes, the nearest first. Several are numbered. -/
def errorReport (message : String) (causes : List String) : String :=
  let lines := match causes with
    | [] => ""
    | [cause] => "\n\nCaused by:\n    " ++ cause
    | _ => "\n\nCaused by:" ++ String.join
        (causes.zipIdx.map fun c => "\n    " ++ Digits.decimal c.2 ++ ": " ++ c.1)
  "Error: " ++ message ++ lines ++ "\n"

/-- The end of a run that fails. -/
def failure (message : String) (causes : List String) : Ending :=
  ⟨"", errorReport message causes, 1⟩

/-- The end of a run that performs no command. -/
def withoutCommand (e : CommandLine.NoCommand) : Ending :=
  match e with
  | .help _ | .version => ⟨e.text, "", e.exitStatus⟩
  | .nothingAsked => ⟨"", e.text, e.exitStatus⟩
  | .refused _ => ⟨"", e.text ++ "\n", e.exitStatus⟩

/-! ## Serving -/

/-- The lines that a node says when it begins to serve at an address. -/
def servingLines (painting : Bool) (settings : Settings) (address : SocketAddress) : String :=
  let paint := Look.paint painting
  let node := paint (.strongOfColour .green) "✓" ++ " raftkv node "
    ++ paint (.ofColour .yellow) settings.nodeId ++ " serving on " ++ paint .strong address.text
    ++ "\n"
  let metrics := "  Metrics: http://" ++ paint (.ofColour .cyan) settings.metricsAddr.text
    ++ "/metrics\n"
  if settings.exposeMetrics then node ++ metrics else node

/-- A machine that is about to serve with the given settings, and the metrics of its process. -/
def hostOf (settings : Settings) (table : AddressTable Listener) (shared : SharedMetrics)
    (metrics : RequestMetrics) (scrape? : Option SocketAddress) (connected : Bool) :
    Host MemoryStore where
  door := ⟨.new settings.nodeId settings.httpAddr.text, metrics⟩
  registry := shared.registry
  table := table
  posts := [⟨.new 0 settings.httpAddr, none⟩]
  next := 1
  scrape? := scrape?
  connected := connected

/-- Starts the scrape endpoint if it is wanted. -/
def exposeMetrics (settings : Settings) (table : AddressTable Listener) :
    Except Ending (Option SocketAddress × AddressTable Listener) :=
  if settings.exposeMetrics then
    match Scrape.bind table settings.metricsAddr with
    | (.ok address, table) => .ok (some address, table)
    | (.error e, _) =>
      .error (failure ("failed to expose metrics on " ++ settings.metricsAddr.text)
        [e.message, e.cause])
  else .ok (none, table)

/-- Starts a node with the given settings. -/
def startNode (painting : Bool) (settings : Settings) (table : AddressTable Listener)
    (connected : Bool) : ServeOutcome :=
  match SharedMetrics.fresh.get with
  | (.error e, _) =>
    let e := ServiceError.metrics e
    .ended (failure e.message e.causes)
  | (.ok metrics, shared) =>
    match exposeMetrics settings table with
    | .error e => .ended e
    | .ok (scrape?, table) =>
      let host := hostOf settings table shared metrics scrape? connected
      match (Service.new 0 settings.httpAddr).start table with
      | (.error e, _, _) =>
        .ended (failure ("failed to start HTTP service on " ++ settings.httpAddr.text)
          (e.message :: e.causes))
      | (.ok (), service, table) =>
        let address := service.listening?.getD settings.httpAddr
        let host := host.put 0 ⟨service, service.listening?⟩ table
        .serving (servingLines painting settings address) address host

/-- Performs the serve command, where `files` tells what reading the file of a path yields. -/
def serve (painting : Bool) (files : String → Except SystemError Bytes)
    (table : AddressTable Listener) (connected : Bool) (flags : CommandLine.ServeFlags) :
    ServeOutcome :=
  match flags.resolve files with
  | .error e => .ended (failure e.message e.causes)
  | .ok settings => startNode painting settings table connected

/-! ## Driving -/

/-- The line with which a load run begins. -/
def drivingLine (painting : Bool) (flags : CommandLine.LoadFlags) : String :=
  let plan := flags.plan
  let paint := Look.paint painting
  "Driving " ++ paint .strong plan.target ++ " with "
    ++ paint (.ofColour .yellow) (Count.text plan.users) ++ " users for "
    ++ Count.text flags.seconds ++ "s...\n"

def tallyLine (painting : Bool) (name : String) (t : Tally) : String :=
  let paint := Look.paint painting
  let item (l : Look) (label : String) (n : Nat) := "  " ++ paint l label ++ " " ++ Digits.decimal n
  "  " ++ paint .strong name ++ "  total " ++ Digits.decimal t.total
    ++ item (.ofColour .green) "ok" t.ok ++ item (.ofColour .yellow) "4xx" t.clientErrors
    ++ item (.ofColour .red) "5xx" t.serverErrors
    ++ item (.strongOfColour .red) "failed" t.transportErrors ++ "\n"

/-- The lines with which a load run ends. -/
def reportLines (painting : Bool) (r : LoadReport) : String :=
  tallyLine painting "POST /key" r.writes ++ tallyLine painting "GET  /key" r.reads

end Program

end FrontDoor
