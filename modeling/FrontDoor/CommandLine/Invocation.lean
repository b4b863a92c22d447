import FrontDoor.CommandLine.Load
import FrontDoor.CommandLine.Manual
import FrontDoor.CommandLine.Reading
import FrontDoor.CommandLine.Serve

/-!
# Invocations

A command line names a command after the options that all commands share; what follows belongs to
the command. Help and version are answers of their own. What a command line asks for, or why it is
refused, is all decided here.
-/

namespace FrontDoor.CommandLine

inductive CommandName where
  | serve
  | load
  | help
  deriving DecidableEq, Repr

namespace CommandName

def text : CommandName → String
  | serve => "serve"
  | load => "load"
  | help => "help"

def about : CommandName → String
  | serve => "Run a node serving /key, /join and /status"
  | load => "Drive a running node with concurrent reads and writes"
  | help => "Print this message or the help of the given subcommand(s)"

/-- All commands, in the order of the manual. -/
def all : List CommandName := [serve, load, help]

def ofString? (s : String) : Option CommandName := all.find? (·.text = s)

end CommandName

/-- The options in front of a command. -/
structure SharedFlags where
  verbose : Bool
  deriving DecidableEq

namespace SharedFlags

def empty : SharedFlags := ⟨false⟩

/-- The switch for more to be told. -/
def verboseSwitch : Switch SharedFlags where
  spelling := Spelling.verbose
  given f := f.verbose
  turnOn _ := ⟨true⟩

/-- The options in front of a command. -/
def options : List (Opt SharedFlags) := [.switch verboseSwitch, .help, .version]

end SharedFlags

/-! ## Manual -/

def mainPage : Page where
  about := "raftkv node: HTTP front door for a consensus-backed key-value store"
  usage := "raftkvd [OPTIONS] <COMMAND>"
  sections :=
    [⟨"Commands", CommandName.all.map fun c => (c.text, c.about)⟩, Opt.manual SharedFlags.options]

def CommandName.page (c : CommandName) : Page where
  about := c.about
  usage := match c with
    | serve => "raftkvd serve [OPTIONS]"
    | load => "raftkvd load [OPTIONS]"
    | help => "raftkvd help [COMMAND]..."
  sections := match c with
    | serve => [Opt.manual ServeFlags.options]
    | load => [Opt.manual LoadFlags.options]
    | help => [⟨"Arguments", [("[COMMAND]...", "Print help for the subcommand(s)")]⟩]

def versionText : String := "raftkvd 0.1.0\n"

/-! ## Reading -/

inductive Command where
  | serve (flags : ServeFlags)
  | load (flags : LoadFlags)
  deriving DecidableEq

structure Invocation where
  verbose : Bool
  command : Command
  deriving DecidableEq

/-- Why no command is performed. -/
inductive NoCommand where
  /-- A page is shown because it was asked for. -/
  | help (page : Page)
  /-- The page of the program is shown because nothing was asked for. -/
  | nothingAsked
  | version
  | refused (r : Refusal)

namespace NoCommand

def text : NoCommand → String
  | help page => page.text
  | nothingAsked => mainPage.text
  | version => versionText
  | refused r => r.message

/-- The status with which the program ends. -/
def exitStatus : NoCommand → Nat
  | help _ => 0
  | version => 0
  | nothingAsked => 2
  | refused _ => 2

/-- Why no command is performed when the reading of a command with the given page stops. -/
def ofStop (page : Page) : Stop → NoCommand
  | .asked .help => help page
  | .asked .version => version
  | .refused r => refused r

end NoCommand

namespace Invocation

/-- The page of the command that some names lead to. No command has commands of its own. -/
def helpOn : List String → NoCommand
  | [] => .help mainPage
  | name :: rest =>
    match CommandName.ofString? name, rest with
    | some c, [] => .help c.page
    | some _, other :: _ => .refused (.unknownCommand other)
    | none, _ => .refused (.unknownCommand name)

/-- The refusal of a word where a command should be. After the end of options even the name of a
command is none. -/
def strayWord (text : String) : Refusal :=
  if (CommandName.ofString? text).isSome then .unknownArgument text else .unknownCommand text

/-- The command that follows the options in front of it. -/
def ofCommand (shared : SharedFlags) (words : List String) : CommandName →
    Except NoCommand Invocation
  | .serve =>
    match Reading.readAll ServeFlags.options .empty words with
    | .ok flags => .ok ⟨shared.verbose || flags.verbose, .serve flags⟩
    | .error stop => .error (.ofStop CommandName.serve.page stop)
  | .load =>
    match Reading.readAll LoadFlags.options .empty words with
    | .ok flags => .ok ⟨shared.verbose || flags.verbose, .load flags⟩
    | .error stop => .error (.ofStop CommandName.load.page stop)
  | .help => .error (helpOn words)

/-- Reads on when some options in front of the command have been read. -/
def readFrom (r : Reading SharedFlags) : List String → Except NoCommand Invocation
  | [] => .error (if r.flags.verbose then .refused .missingCommand else .nothingAsked)
  | word :: rest =>
    match if r.ended then none else CommandName.ofString? word with
    | some command => ofCommand r.flags rest command
    | none =>
      match r.take SharedFlags.options strayWord word with
      | .ok r => readFrom r rest
      | .error stop => .error (.ofStop mainPage stop)

/-- What a command line asks for, given the words after the name of the program. -/
def read (words : List String) : Except NoCommand Invocation := readFrom (.start .empty) words

end Invocation

end FrontDoor.CommandLine
