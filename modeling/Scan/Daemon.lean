import Scan.Config
import Scan.Daemon.Message
import Scan.Descriptor.Yaml
import Scan.Evaluator
import Scan.Sequencer
import Scan.Worker.Surroundings

/-!
# The daemon

The daemon answers requests, one after another, and runs at most one submitted sequence at a time
next to them. Both act on the plant, which lives as long as the daemon does. A refused request
leaves everything as it was.
-/

namespace Scan

open Json

/-- How far a submitted run has come. -/
inductive Phase where
  /-- The run has not started. -/
  | pending
  | executing (worker : Worker Float)
  /-- The report has been stored, but the job is not yet free for another. -/
  | closing
  | ended

/-- A submitted sequence. -/
structure Job where
  sequencer : Sequencer Float
  runId : String
  phase : Phase := .pending

/-- Whether another sequence may be submitted after a job. -/
def Job.isOver (job : Job) : Bool :=
  match job.phase with
  | .ended => true
  | _ => false

/-- The state of a daemon. -/
structure Daemon where
  pollInterval : Duration
  profile : Profile Float
  plant : Plant Float
  /-- The job that was submitted last. -/
  job : Option Job := none
  /-- The report of the last run that came to its end. -/
  lastReport : Option RunReport := none

namespace Daemon

/-- The daemon of a configuration. -/
def ofConfig (config : Config Float) (now : Instant) : Daemon where
  pollInterval := config.pollInterval
  profile := config.profile
  plant := config.plant now

/-! ## The submitted run -/

/-- What a moment of the submitted run comes to. -/
inductive Moment where
  /-- No run is in progress. -/
  | idle
  /-- The run is held at a safe point. -/
  | held
  | moved (daemon : Daemon)
  /-- The run rests until it is woken. -/
  | resting (id : Nat) (limit : Duration) (woken : Daemon)

/-- The daemon with the run of its job one moment on. -/
def withRun (daemon : Daemon) (job : Job) (station : Station Float) (worker : Worker Float) :
    Daemon :=
  { daemon with
    plant := station.plant
    job := some { job with
      sequencer := job.sequencer.withBoard station.board, phase := .executing worker } }

/-- One moment of the submitted run. A run that has come to its end leaves its report; a run that
cannot start leaves none. -/
def live (daemon : Daemon) (now : Instant) : Moment :=
  match daemon.job with
  | none => .idle
  | some job =>
      let close (phase : Phase) : Daemon := { daemon with job := some { job with phase := phase } }
      match job.phase with
      | .ended => .idle
      | .closing => .moved (close .ended)
      | .pending =>
          match job.sequencer.beginRun job.runId with
          | .ok (sequencer, worker) =>
              .moved (daemon.withRun job ⟨sequencer.board, daemon.plant⟩ worker)
          | .error _ => .moved (close .ended)
      | .executing worker =>
          let start : Station Float := ⟨job.sequencer.board, daemon.plant⟩
          let (moment, station) :=
            (worker.live (Station.surroundings evaluateLiteral now)).run start
          match moment with
          | .over => .moved { close .closing with lastReport := worker.report.or daemon.lastReport }
          | .held => .held
          | .moved worker => .moved (daemon.withRun job station worker)
          | .resting id limit wake =>
              let (board, worker) := wake station.board
              .resting id limit (daemon.withRun job { station with board := board } worker)

/-! ## Requests -/

/-- Why a request is refused. -/
inductive Refusal where
  /-- The line is no request. -/
  | undecodable (fault : Fault)
  | unknownMethod (method : String)
  | noSequence
  | badSequence (fault : Fault)
  | unloadable (error : LoadError)
  | noChannel
  | noValue
  | scan (error : ScanError)

/-- The text of a fault after what it concerns; of a text that is not JSON there is nothing more to
say. -/
def faultText (subject : String) : Fault → String
  | .malformed => subject
  | fault => subject ++ ": " ++ fault.message

/-- A refusal as clients see it. -/
def Refusal.info : Refusal → ErrorInfo
  | .undecodable fault => ⟨.invalidInput, faultText "invalid JSON request" fault⟩
  | .unknownMethod method => ⟨.invalidInput, "unknown method: " ++ method⟩
  | .noSequence => ⟨.invalidInput, "expected 'yaml' or 'sequence' param"⟩
  | .badSequence fault => ⟨.invalidInput, faultText "invalid sequence" fault⟩
  | .unloadable error => ⟨.invalidInput, error.message⟩
  | .noChannel => ⟨.invalidInput, "missing 'channel' param"⟩
  | .noValue => ⟨.invalidInput, "missing numeric 'value' param"⟩
  | .scan error => error.info

/-- A named parameter, if the parameters are an object that has it. -/
def param? (params : Value) (name : String) : Option Value :=
  match params with
  | .object members => Members.get? members name
  | _ => none

/-- The sequence that a request carries: as a text under `yaml`, else as a value under
`sequence`. -/
def sequenceParam (params : Value) : Except Refusal Sequence :=
  match (param? params "yaml").bind Value.asString? with
  | some text => (Sequence.ofYaml text).mapError .unloadable
  | none =>
      match param? params "sequence" with
      | some value => (Sequence.decode.ofValue value).mapError .badSequence
      | none => .error .noSequence

/-- The channel that a request names. -/
def channelParam (params : Value) : Except Refusal String :=
  match (param? params "channel").bind Value.asString? with
  | some channel => .ok channel
  | none => .error .noChannel

/-- The number that a request carries. -/
def valueParam (params : Value) : Except Refusal Float :=
  match (param? params "value").bind Value.asFloat? with
  | some value => .ok value
  | none => .error .noValue

/-- The answer that names a channel and its value. -/
def reading (channel : String) (value : Float) : Value :=
  .object [("channel", .string channel), ("value", .float value)]

/-- Makes a dry run of a sequence. -/
def simulate (daemon : Daemon) (runId : String) (params : Value) : Except Refusal Value := do
  let sequence ← sequenceParam params
  let sequencer ← (Sequencer.ofSequence sequence daemon.pollInterval).mapError .scan
  let report ← (sequencer.simulate daemon.profile evaluateLiteral runId).1.mapError .scan
  return report.toValue

/-- Accepts a sequence as the next job, unless one is in progress. -/
def submit (daemon : Daemon) (runId : String) (params : Value) :
    Except Refusal (Value × Daemon) := do
  let sequence ← sequenceParam params
  if let some job := daemon.job then
    if !job.isOver then
      throw (.scan (.busy ("sequence is " ++ job.sequencer.state.name)))
  let sequencer ← (Sequencer.ofSequence sequence daemon.pollInterval).mapError .scan
  return (.object [("accepted", .bool true), ("total_work", .word sequencer.totalWork)],
    { daemon with job := some { sequencer := sequencer, runId := runId } })

/-- Makes a control call on the job and tells the state after it. -/
def control (daemon : Daemon) (now : Instant) (call : Call) : Value × Daemon :=
  let answer (state : RunState) : Value := .object [("state", .string state.name)]
  match daemon.job with
  | none => (answer .idle, daemon)
  | some job =>
      let sequencer := (job.sequencer.perform now call).1
      (answer sequencer.state, { daemon with job := some { job with sequencer := sequencer } })

/-- Skips what the job is waiting for, and tells whether there was anything. -/
def skip (daemon : Daemon) (now : Instant) : Value × Daemon :=
  let answer (accepted : Bool) : Value := .object [("skipped", .bool accepted)]
  match daemon.job with
  | none => (answer false, daemon)
  | some job =>
      let (sequencer, result) := job.sequencer.perform now .skip
      (answer (result == .skipped true),
        { daemon with job := some { job with sequencer := sequencer } })

/-- The progress of the job, and the last report. -/
def status (daemon : Daemon) (now : Instant) : Value :=
  .object [
    ("progress", optionalValue (fun job => (job.sequencer.progress now).toValue) daemon.job),
    ("last_report", optionalValue RunReport.toValue daemon.lastReport)]

/-- Reads a channel. -/
def read (daemon : Daemon) (now : Instant) (params : Value) : Except Refusal Value := do
  let channel ← channelParam params
  let value ← (daemon.plant.read channel now).mapError fun error => .scan (.liveIo channel error)
  return reading channel value

/-- Writes a channel. -/
def write (daemon : Daemon) (now : Instant) (params : Value) :
    Except Refusal (Value × Daemon) := do
  let channel ← channelParam params
  let value ← valueParam params
  let plant ← (daemon.plant.write channel value now).mapError fun error =>
    .scan (.liveIo channel error)
  return (reading channel value, { daemon with plant := plant })

/-- Performs a request; `runId` is for a run that it may start. -/
def perform (daemon : Daemon) (now : Instant) (runId : String) (request : Request) :
    Except Refusal (Value × Daemon) :=
  let params := request.params
  match request.method with
  | "simulate" => (daemon.simulate runId params).map fun found => (found, daemon)
  | "submit" => daemon.submit runId params
  | "pause" => .ok (daemon.control now .pause)
  | "resume" => .ok (daemon.control now .resume)
  | "abort" => .ok (daemon.control now .abort)
  | "skip" => .ok (daemon.skip now)
  | "status" => .ok (daemon.status now, daemon)
  | "read" => (daemon.read now params).map fun found => (found, daemon)
  | "write" => daemon.write now params
  | other => .error (.unknownMethod other)

/-- Answers a line. -/
def handle (daemon : Daemon) (now : Instant) (runId line : String) : Response × Daemon :=
  match Request.decode.ofText line with
  | .error fault => (.failed "unknown" (Refusal.undecodable fault).info, daemon)
  | .ok request =>
      match daemon.perform now runId request with
      | .ok (result, daemon) => (.ok request.id result, daemon)
      | .error refusal => (.failed request.id refusal.info, daemon)

end Daemon

end Scan
