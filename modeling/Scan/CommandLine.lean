import Scan.CommandLine.Arguments
import Scan.Config.Loading
import Scan.Daemon
import Scan.Report.Text

/-!
# The program

What the program does for each command, in terms of what its host can do: read and write files, talk
to a daemon, and let a worker live. An exit code of 2 says that nothing could be started, 1 that
something that was started did not come to a good end.
-/

namespace Scan.CommandLine

/-- What the program needs from where it runs. A failure comes with its reason. -/
structure Host (m : Type → Type) where
  environment : m (List (String × String))
  contents : String → m (Except String String)
  store : String → String → m (Except String Unit)
  /-- Makes a directory and those above it. -/
  makeDirectory : String → m (Except String Unit)
  /-- A name that no other run has. -/
  freshId : m String
  /-- Asks a person; there is no answer if nobody is there. -/
  confirm : String → m (Option Bool)
  now : m Instant
  /-- Lets a worker live next to a plant until nothing is left to do. -/
  execute : Worker Float → Station Float → m (Worker Float × Station Float)
  /-- Sends a line to the daemon at an address and waits for a line. -/
  ask : String → String → m (Except String String)
  /-- Answers requests at an address for as long as it can. -/
  serve : String → Daemon → m String
  print : String → m Unit
  complain : String → m Unit

/-- The exit code for what could not be started. -/
def inputError : UInt32 := 2

/-- The exit code for a refusal or a failed dry run. -/
def exitCodeOfError (error : ErrorInfo) : UInt32 :=
  match error.code with
  | .invalidInput | .unknownCommand => inputError
  | _ => 1

/-- The exit code for a run. -/
def exitCodeOfState : RunState → UInt32
  | .finished => 0
  | _ => 1

/-! ## Files -/

/-- The name of the configuration file where none is given. -/
def configFile : String := "scanctl.yaml"

/-- The name of the local configuration file, beside the main one. -/
def localConfigFile : String := ".scanctl.yaml"

/-- A path without what is at its end but names nothing: slashes, and single dots after slashes. -/
def trimPath (path : String) : String :=
  let isVoid (part : String) : Bool := part.isEmpty || part == "."
  match (path.splitOn "/").reverse with
  | last :: rest =>
      if isVoid last && rest.any (!isVoid ·) then
        "/".intercalate ((last :: rest).dropWhile isVoid).reverse
      else path
  | [] => path

/-- The path of a file in the same directory as another. -/
def beside (path name : String) : String :=
  String.ofList (path.toList.reverse.dropWhile (· != '/')).reverse ++ name

/-- The path of something in a directory. -/
def inside (directory name : String) : String :=
  if directory.endsWith "/" then directory ++ name else directory ++ "/" ++ name

section

variable {m : Type → Type} [Monad m] (host : Host m)

/-- The first file that is there of those with an ending after a path. -/
def findEnding (path : String) : List (String × Format) → m (Option ConfigFile)
  | [] => return none
  | (ending, format) :: rest => do
      match ← host.contents (path ++ "." ++ ending) with
      | .ok text => return some ⟨some format, text⟩
      | .error _ => findEnding path rest

/-- Finds a configuration file. The ending of its name may be left out. -/
def findConfig (path : String) : m (Option ConfigFile) := do
  match ← host.contents path with
  | .ok text => return some ⟨Format.ofPath? path, text⟩
  | .error _ => findEnding host (trimPath path) Format.endings

/-- Loads the configuration. -/
def loadConfig (path : Option String) : m (Except ConfigError (Config Float)) := do
  let path := path.getD configFile
  let main ← findConfig host path
  let besides ← findConfig host (beside (trimPath path) localConfigFile)
  return Config.ofFiles main besides (← host.environment)

/-! ## Answers -/

/-- Prints the lines of a text. -/
def printAll (lines : List String) : m Unit :=
  lines.forM host.print

/-- Reports an error, to programs where the results go, to people beside them. -/
def reportError (json : Bool) (error : ErrorInfo) : m Unit :=
  if json then host.print (Json.Value.object [("error", error.toValue)]).pretty
  else host.complain ("[ERROR] " ++ error.line)

/-- Reports an error that no other exit code is known for. -/
def giveUp (reason : String) : m UInt32 := do
  host.complain ("error: " ++ reason)
  return inputError

/-- Writes a value to a file. -/
def writeValue (path : String) (value : Json.Value) : m (Except String Unit) := do
  return (← host.store path value.pretty).mapError fun reason =>
    "failed to write " ++ path ++ ": " ++ reason

/-! ## Commands -/

/-- Loads and compiles the sequence of a file. -/
def prepare (config : Config Float) (file : String) :
    m (Except ErrorInfo (Sequencer Float)) := do
  match Sequence.ofFile file (← host.contents file) with
  | .error error => return .error ⟨.invalidInput, error.message⟩
  | .ok sequence =>
      return (Sequencer.ofSequence sequence config.pollInterval).mapError ScanError.info

/-- Makes a dry run of the sequence of a file; a failure has been reported and comes with its exit
code. -/
def rehearse (config : Config Float) (file : String) (json : Bool) :
    m (Except UInt32 (Sequencer Float × SimulationReport Float)) := do
  match ← prepare host config file with
  | .error error =>
      reportError host json error
      return .error inputError
  | .ok sequencer =>
      match (sequencer.simulate config.profile evaluateLiteral (← host.freshId)).1 with
      | .error error =>
          reportError host json error.info
          return .error (exitCodeOfError error.info)
      | .ok report => return .ok (sequencer, report)

/-- Estimates a sequence. -/
def simulate (config : Config Float) (file : String) (json : Bool) (out : Option String) :
    m UInt32 := do
  match ← rehearse host config file json with
  | .error code => return code
  | .ok (_, report) =>
      let written ← match out with
        | some path => writeValue host path report.toValue
        | none => pure (.ok ())
      match written with
      | .error reason => giveUp host reason
      | .ok () =>
          if json then host.print report.toValue.pretty else printAll host report.lines
          return 0

/-- Writes the report and the events of a run into a directory named after the run. What cannot be
written is told, and otherwise passed over. -/
def writeArtifacts (directory : String) (report : RunReport) (events : List Event) :
    m Unit := do
  let place := inside directory report.runId
  match ← host.makeDirectory place with
  | .error reason =>
      host.complain ("warning: failed to create artifacts dir " ++ place ++ ": " ++ reason)
  | .ok () =>
      if let .error reason ← writeValue host (inside place "result.json") report.toValue then
        host.complain ("warning: " ++ reason)
      let lines := events.map fun event => event.toValue.compact ++ "\n"
      if let .error reason ← host.store (inside place "events.jsonl") (String.join lines) then
        host.complain ("warning: failed to write events.jsonl: " ++ reason)

/-- The question before a run. -/
def question (sequencer : Sequencer Float) (estimate : SimulationReport Float) : String :=
  "Run '" ++ shownName estimate.name ++ "' (" ++ toString sequencer.sequence.steps.length ++
    " steps, estimated " ++ formatSeconds estimate.totalSeconds ++ ")?"

/-- Makes a run of a compiled sequence and reports it. -/
def execute (config : Config Float) (sequencer : Sequencer Float) (json : Bool)
    (artifacts : Option String) : m UInt32 := do
  let inbox := sequencer.board.bus.next
  let watched := sequencer.withBoard { sequencer.board with bus := sequencer.board.bus.subscribe }
  match watched.beginRun (← host.freshId) with
  | .error error =>
      reportError host json error.info
      return exitCodeOfError error.info
  | .ok (started, worker) =>
      let plant := config.plant (← host.now)
      let (worker, station) ← host.execute worker ⟨started.board, plant⟩
      match worker.report with
      | none => giveUp host "scan worker stopped without a report"
      | some report =>
          let events := ((station.board.bus.pending? inbox).getD #[]).toList
          if let some directory := artifacts then
            writeArtifacts host directory report events
          if json then host.print report.toValue.pretty else printAll host report.lines
          return exitCodeOfState report.state

/-- Estimates a sequence and, if nobody objects, runs it. -/
def run (config : Config Float) (file : String) (json yes : Bool) (artifacts : Option String) :
    m UInt32 := do
  match ← rehearse host config file json with
  | .error code => return code
  | .ok (sequencer, estimate) =>
      let agreed ← if yes then pure (some true) else host.confirm (question sequencer estimate)
      match agreed with
      | some true => execute host config sequencer json artifacts
      | some false =>
          host.complain "run cancelled"
          return 0
      | none =>
          giveUp host "confirmation prompt failed (use --yes when not on a terminal)"

/-- Sends a request to a daemon. What comes back has to be a response to that request. -/
def request (socket method : String) (params : Json.Value) : m (Except String Response) := do
  let sent : Scan.Request := { id := ← host.freshId, method := method, params := params }
  match ← host.ask socket sent.toValue.compact with
  | .error reason => return .error reason
  | .ok line =>
      match Response.decode.ofText line with
      | .error _ => return .error "invalid daemon response"
      | .ok response =>
          if response.id == sent.id then return .ok response
          else
            return .error ("daemon answered request " ++ response.id ++ " instead of " ++ sent.id)

/-- Passes a request for a channel on to a daemon. `arrow` stands between the channel and its
value. -/
def forward (socket method arrow : String) (params : Json.Value) (json : Bool) :
    m UInt32 := do
  match ← request host socket method params with
  | .error reason => giveUp host reason
  | .ok response =>
      match response.error with
      | some error =>
          reportError host json error
          return 1
      | none =>
          let result := response.result.getD .null
          if json then host.print result.compact
          else
            host.print (((result.member "channel").asString?.getD "") ++ " " ++ arrow ++ " " ++
              (result.member "value").compact)
          return 0

/-- Does what is asked for under a configuration. -/
def dispatch (config : Config Float) : Request → m UInt32
  | .simulate file json out => simulate host config file json out
  | .run file json yes artifacts => run host config file json yes artifacts
  | .read channel socket json =>
      forward host socket "read" "=" (.object [("channel", .string channel)]) json
  | .write channel value socket json =>
      forward host socket "write" "<-"
        (.object [("channel", .string channel), ("value", .float value)]) json
  | .serve socket => do
      giveUp host (← host.serve socket (Daemon.ofConfig config (← host.now)))

/-- The name and version of the program. -/
def versionText : String := "scanctl 0.1.0"

/-- How the program is used. -/
def helpText : List String :=
  ["Simulate, run and control scan sequences", "",
    "Usage: scanctl [--config <FILE>] <COMMAND>", "", "Commands:",
    "  simulate <FILE> [--json] [--out <PATH>]",
    "  run <FILE> [--json] [--yes] [--artifacts <DIR>]",
    "  read <CHANNEL> --socket <PATH> [--json]",
    "  write <CHANNEL> <VALUE> --socket <PATH> [--json]",
    "  serve --socket <PATH>",
    "  help [COMMAND]"]

/-- What the program does, with its exit code, for the words of a command line. -/
def program (words : List String) : m UInt32 := do
  match Arguments.ofWords words with
  | .error .help =>
      printAll host helpText
      return 0
  | .error .version =>
      host.print versionText
      return 0
  | .error .misuse =>
      helpText.forM host.complain
      return inputError
  | .ok arguments =>
      match ← loadConfig host arguments.config with
      | .error error => giveUp host ("failed to load configuration: " ++ error.message)
      | .ok config => dispatch host config arguments.request

end

end Scan.CommandLine
