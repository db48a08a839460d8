import Scan.CommandLine
import Scan.RunId

/-!
# Running on a machine

The host of the program: files, the clock, the terminal, and a mailbox in which a daemon and its
clients leave each other files. A request is a file in the directory that is the daemon's address,
and its answer another one beside it.
-/

namespace Scan.Machine

/-- What a failure says. -/
def reason : IO.Error → String
  | .noFileOrDirectory .. => "No such file or directory (os error 2)"
  | .permissionDenied .. => "Permission denied (os error 13)"
  | other => toString other

/-- The result of an action, or the reason of its failure. -/
def attempt {β : Type} (action : IO β) : IO (Except String β) := do
  try return .ok (← action)
  catch failure => return .error (reason failure)

/-- The environment variables. -/
def environment : IO (List (String × String)) := do
  match ← attempt (IO.FS.readFile "/proc/self/environ") with
  | .error _ => return []
  | .ok text =>
      return (text.splitOn "\x00").filterMap fun entry =>
        match entry.splitOn "=" with
        | name :: value :: more => some (name, "=".intercalate (value :: more))
        | _ => none

/-- A name that no other run has. -/
def freshId : IO String :=
  return runId (← IO.getRandomBytes 16).toList

/-- Asks for a yes or no, if there is a terminal. -/
def confirm (question : String) : IO (Option Bool) := do
  let input ← IO.getStdin
  if ← input.isTty then
    IO.eprint (question ++ " [y/N] ")
    return some ((← input.getLine).startsWith "y")
  else return none

/-- Rests for a time, but no longer than `bound` milliseconds. -/
def rest (limit : Duration) (bound : Nat) : IO Unit :=
  IO.sleep (min bound (limit.nanoseconds / 1000000 + 1)).toUInt32

/-- Lets a worker live to its end. A rest may be cut into shorter ones, since a worker looks at the
clock when it wakes. -/
partial def execute (worker : Worker Float) (station : Station Float) :
    IO (Worker Float × Station Float) := do
  let now ← IO.monoNanosNow
  let (moment, station) := (worker.live (Station.surroundings evaluateLiteral now)).run station
  match moment with
  | .over | .held => return (worker, station)
  | .moved worker => execute worker station
  | .resting _ limit wake =>
      rest limit 1000
      let (board, worker) := wake station.board
      execute worker { station with board := board }

/-! ## The mailbox -/

/-- Puts a text into a file that is complete as soon as it is there. -/
def post (path text : String) : IO Unit := do
  IO.FS.writeFile (path ++ ".part") text
  IO.FS.rename (path ++ ".part") path

/-- Answers the requests in a mailbox. -/
def answerAll (address : String) (daemon : Daemon) : IO Daemon := do
  let mut daemon := daemon
  for entry in ← ((← IO.currentDir) / address).readDir do
    if entry.fileName.endsWith ".request" then
      let line ← IO.FS.readFile entry.path
      IO.FS.removeFile entry.path
      let (response, next) := daemon.handle (← IO.monoNanosNow) (← freshId) line
      daemon := next
      post (address ++ "/" ++ (entry.fileName.dropEnd ".request".length).toString ++ ".response")
        response.toValue.compact
  return daemon

/-- Answers requests and lets the submitted run live. -/
partial def attend (address : String) (daemon : Daemon) : IO Unit := do
  let daemon ← answerAll address daemon
  match daemon.live (← IO.monoNanosNow) with
  | .moved daemon => attend address daemon
  | .idle | .held =>
      IO.sleep 2
      attend address daemon
  | .resting _ limit woken =>
      rest limit 2
      attend address woken

/-- Serves at an address until that fails. -/
def serve (address : String) (daemon : Daemon) : IO String := do
  let opened ← attempt do
    unless ← ((← IO.currentDir) / address).isDir do IO.FS.createDir address
  match opened with
  | .error reason => return "cannot bind socket " ++ address ++ ": " ++ reason
  | .ok () =>
      IO.eprintln ("scanctl daemon listening on " ++ address)
      match ← attempt (attend address daemon) with
      | .error reason => return reason
      | .ok () => return "the daemon has stopped"

/-- Waits for a file, which is taken away, for a number of turns. -/
def await (path : String) : (turns : Nat) → IO (Except String String)
  | 0 => return .error "daemon closed the connection without replying"
  | turns + 1 => do
      match ← attempt (IO.FS.readFile path) with
      | .ok text =>
          IO.FS.removeFile path
          return .ok text
      | .error _ =>
          IO.sleep 2
          await path turns

/-- Sends a line to the daemon at an address and waits for its answer. -/
def ask (address line : String) : IO (Except String String) := do
  let name := address ++ "/" ++ (← freshId)
  match ← attempt (post (name ++ ".request") line) with
  | .error reason =>
      return .error ("cannot connect to daemon at " ++ address ++ ": " ++ reason)
  | .ok () => await (name ++ ".response") 5000

/-- This machine as the host of the program. -/
def host : CommandLine.Host IO where
  environment := environment
  contents path := attempt (IO.FS.readFile path)
  store path text := attempt (IO.FS.writeFile path text)
  makeDirectory path := attempt (IO.FS.createDirAll path)
  freshId := freshId
  confirm := confirm
  now := IO.monoNanosNow
  execute := execute
  ask := ask
  serve := serve
  print := IO.println
  complain := IO.eprintln

end Scan.Machine

/-- The program. -/
def main (words : List String) : IO UInt32 :=
  Scan.CommandLine.program Scan.Machine.host words
