import FrontDoor.Http.Wire
import FrontDoor.Load.Drive
import FrontDoor.Load.Launch
import FrontDoor.Program

/-!
# The command

What the program does to the world: it reads the file of settings, serves the messages that arrive
on standard input, and drives users with the clock and random numbers. All decisions are made
elsewhere.
-/

namespace FrontDoor.Shell

/-- Why a file could not be read. -/
def systemError : IO.Error → SystemError
  | .noFileOrDirectory _ _ _ => .notFound
  | .inappropriateType _ code _ => if code = 21 then .isADirectory else .notADirectory
  | e => .other e.toString

def readFile (path : String) : IO (Except SystemError Bytes) := do
  match ← (IO.FS.readBinFile path).toBaseIO with
  | .ok content => return .ok content.toList
  | .error e => return .error (systemError e)

def finish (e : Ending) : IO UInt32 := do
  (← IO.getStdout).putStr e.output
  (← IO.getStderr).putStr e.errors
  return UInt32.ofNat e.status

/-- All that is left of a stream. -/
partial def readAll (stream : IO.FS.Stream) (before : ByteArray) : IO ByteArray := do
  let chunk ← stream.read 65536
  if chunk.isEmpty then return before
  readAll stream (before ++ chunk)

def serveInput (host : Host MemoryStore) : IO Unit := do
  let output ← IO.getStdout
  output.flush
  let input ← readAll (← IO.getStdin) .empty
  let mut host := host
  for request in Wire.requests input.toList do
    let (answer, after) := host.perform MemoryStore.store .byName (.service 0 (.send request))
    host := after
    match answer with
    | .reply (.ok response) => output.write ⟨(Wire.response response).toArray⟩
    | _ => pure ()
  output.flush

def randomNat (bytes : USize) : IO Nat := do
  return (← IO.getRandomBytes bytes).toList.foldl (fun n b => 256 * n + b.toNat) 0

def drawTask : IO LoadTask := do
  let kind := if (← randomNat 1) % 2 = 0 then TaskKind.write else .read
  return ⟨kind, BitVec.ofNat 48 (← randomNat 6), BitVec.ofNat 12 (← randomNat 2),
    BitVec.ofNat 62 (← randomNat 8)⟩

/-- Lets a user go on until the deadline. No connections can be made here. -/
partial def runUser (plan : LoadPlan) (deadline : Nat) (report : LoadReport) : IO LoadReport := do
  if deadline ≤ (← IO.monoMsNow) then return report
  let (done, _) := plan.perform Transport.lost () (← drawTask)
  let pause := (← randomNat 8) % (plan.maxWait.toNat + 1)
  IO.sleep (UInt32.ofNat pause)
  runUser plan deadline (report.record done)

/-- Lets all users go on until the deadline. -/
def runUsers (plan : LoadPlan) (deadline : Nat) : IO LoadReport := do
  let mut users := #[]
  for _ in [0:plan.users.toNat] do
    users := users.push (← IO.asTask (runUser plan deadline .zero))
  let mut reports := #[]
  for user in users do
    reports := reports.push (← IO.ofExcept user.get)
  return .merge reports.toList

def load (painting : Bool) (flags : CommandLine.LoadFlags) : IO UInt32 := do
  let output ← IO.getStdout
  output.putStr (Program.drivingLine painting flags)
  output.flush
  match flags.plan.launch (← IO.monoMsNow) with
  | .error e => finish ⟨"", e.message ++ "\n", 101⟩
  | .ok deadline =>
    let report ← runUsers flags.plan deadline
    finish ⟨Program.reportLines painting report, "", 0⟩

def serve (painting : Bool) (flags : CommandLine.ServeFlags) : IO UInt32 := do
  let file ← match flags.config with
    | some path => readFile path
    | none => pure (.error .notFound)
  match Program.serve painting (fun _ => file) .empty true flags with
  | .ended e => finish e
  | .serving words _ host =>
    (← IO.getStdout).putStr words
    serveInput host
    return 0

/-- Performs what the command line asks for. -/
def run (words : List String) : IO UInt32 := do
  let forced ← IO.getEnv "CLICOLOR_FORCE"
  let painting := Look.forced fun name => if name = "CLICOLOR_FORCE" then forced else none
  match CommandLine.Invocation.read words with
  | .error e => finish (Program.withoutCommand e)
  | .ok invocation =>
    match invocation.command with
    | .serve flags => serve painting flags
    | .load flags => load painting flags

end FrontDoor.Shell

def main (words : List String) : IO UInt32 := FrontDoor.Shell.run words
