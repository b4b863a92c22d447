import FrontDoor.Address.Socket
import FrontDoor.CommandLine.Opt
import FrontDoor.Service.Error

/-!
# The serve command

Its options name a file of settings and override single settings, whether they come from the file
or are the defaults. A file that cannot be used is an error even where everything is overridden.
-/

namespace FrontDoor.CommandLine

/-- The options given to the serve command. -/
structure ServeFlags where
  config : Option String
  httpAddr : Option SocketAddress
  metricsAddr : Option SocketAddress
  nodeId : Option String
  noMetrics : Bool
  verbose : Bool
  deriving DecidableEq

namespace ServeFlags

def empty : ServeFlags := ⟨none, none, none, none, false, false⟩

/-- Reads the address that an option is given. -/
def readAddress (value : String) : Except ValueFault SocketAddress :=
  match SocketAddress.read? value with
  | some a => .ok a
  | none => .error .notAddress

/-- The option for the file of settings. -/
def configOption : ValueOption ServeFlags where
  spelling := ⟨some 'c', "config", "TOML config file; flags below override its values"⟩
  placeholder := "CONFIG"
  default? := none
  mayBeEmpty := false
  given f := f.config.isSome
  accept value f := .ok { f with config := some value }

/-- The option for the address of the service. -/
def httpAddrOption : ValueOption ServeFlags where
  spelling := ⟨none, "http-addr", ""⟩
  placeholder := "HTTP_ADDR"
  default? := none
  mayBeEmpty := true
  given f := f.httpAddr.isSome
  accept value f := (readAddress value).map fun a => { f with httpAddr := some a }

/-- The option for the address of the scrape endpoint. -/
def metricsAddrOption : ValueOption ServeFlags where
  spelling := ⟨none, "metrics-addr", ""⟩
  placeholder := "METRICS_ADDR"
  default? := none
  mayBeEmpty := true
  given f := f.metricsAddr.isSome
  accept value f := (readAddress value).map fun a => { f with metricsAddr := some a }

/-- The option for the name of the node. -/
def nodeIdOption : ValueOption ServeFlags where
  spelling := ⟨none, "node-id", ""⟩
  placeholder := "NODE_ID"
  default? := none
  mayBeEmpty := true
  given f := f.nodeId.isSome
  accept value f := .ok { f with nodeId := some value }

/-- The switch that leaves the scrape endpoint out. -/
def noMetricsSwitch : Switch ServeFlags where
  spelling := ⟨none, "no-metrics", "Do not bind the Prometheus scrape endpoint"⟩
  given f := f.noMetrics
  turnOn f := { f with noMetrics := true }

/-- The switch for more to be told. -/
def verboseSwitch : Switch ServeFlags where
  spelling := Spelling.verbose
  given f := f.verbose
  turnOn f := { f with verbose := true }

def options : List (Opt ServeFlags) :=
  [.value configOption, .value httpAddrOption, .value metricsAddrOption, .switch verboseSwitch,
    .value nodeIdOption, .switch noMetricsSwitch, .help]

/-- Settings with the flags in place of what they override. -/
def override (f : ServeFlags) (s : Settings) : Settings where
  httpAddr := f.httpAddr.getD s.httpAddr
  metricsAddr := f.metricsAddr.getD s.metricsAddr
  nodeId := f.nodeId.getD s.nodeId
  exposeMetrics := !f.noMetrics && s.exposeMetrics

/-- The settings of a node started with these options, where `files` tells what reading the file of
a path yields. -/
def resolve (f : ServeFlags) (files : String → Except SystemError Bytes) :
    Except ServiceError Settings :=
  match f.config with
  | none => .ok (f.override .default)
  | some path => (Settings.load path (files path)).map f.override

end ServeFlags

end FrontDoor.CommandLine
