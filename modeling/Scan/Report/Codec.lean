import Scan.Json.Shape
import Scan.Report

/-!
# Reports and events as data

Each kind of report has a written form and a reader. Events carry the name of their kind among
their members, or first when they are an array.
-/

namespace Scan

open Json

/-- A value for something that may be absent. -/
def optionalValue {α : Type} (encode : α → Value) : Option α → Value
  | some found => encode found
  | none => .null

/-- A member that is left out when there is nothing to write. -/
def optionalMember {α : Type} (name : String) (encode : α → Value) (found : Option α) : Members :=
  (found.map fun value => (name, encode value)).toList

/-- A counter of the platform's word size. -/
def countDecoder : Decoder Nat := fun source document =>
  (Decoder.word "usize" source document).map UInt64.toNat

namespace ErrorInfo

/-- The written form. -/
def toValue (error : ErrorInfo) : Value :=
  .object [("code", .string error.code.name), ("message", .string error.message)]

/-- The fields. -/
def record : Record ErrorInfo :=
  Record.pure ErrorInfo.mk
    |>.field "code" (Decoder.choice ErrorCode.variants)
    |>.field "message" Decoder.string

/-- Reads an error. -/
def decode : Decoder ErrorInfo := record.decode "struct ErrorInfo"

end ErrorInfo

namespace StoppedStep

/-- The written form. -/
def toValue (stopped : StoppedStep) : Value :=
  .object [("step", .nat stopped.step), ("description", .string stopped.description),
    ("error", stopped.error.toValue)]

/-- The fields. -/
def record : Record StoppedStep :=
  Record.pure StoppedStep.mk
    |>.field "step" countDecoder
    |>.field "description" Decoder.string
    |>.field "error" ErrorInfo.decode

/-- Reads the place where a run stopped. -/
def decode : Decoder StoppedStep := record.decode "struct StoppedStep"

end StoppedStep

namespace RunReport

/-- The written form; it has no place for a stop that did not happen. -/
def toValue (report : RunReport) : Value :=
  .object ([("run_id", .string report.runId), ("name", .optString report.name),
    ("state", .string report.state.name), ("steps_completed", .nat report.stepsCompleted),
    ("work_performed", .word report.workPerformed), ("total_work", .word report.totalWork),
    ("elapsed_ms", .word report.elapsedMs)] ++
    optionalMember "stopped_at" StoppedStep.toValue report.stoppedAt)

/-- The fields. -/
def record : Record RunReport :=
  Record.pure RunReport.mk
    |>.field "run_id" Decoder.string
    |>.optionalField "name" Decoder.string
    |>.field "state" (Decoder.choice RunState.variants)
    |>.field "steps_completed" countDecoder
    |>.field "work_performed" (Decoder.word "u64")
    |>.field "total_work" (Decoder.word "u64")
    |>.field "elapsed_ms" (Decoder.word "u64")
    |>.defaultField "stopped_at" StoppedStep.decode.optional none

/-- Reads the report of a run. -/
def decode : Decoder RunReport := record.decode "struct RunReport"

end RunReport

namespace SimulationStep

/-- The written form. -/
def toValue (step : SimulationStep Float) : Value :=
  .object [("label", .string step.label), ("seconds", .float step.seconds)]

/-- The fields. -/
def record : Record (SimulationStep Float) :=
  Record.pure SimulationStep.mk
    |>.field "label" Decoder.string
    |>.field "seconds" Decoder.float

/-- Reads an entry of a trace. -/
def decode : Decoder (SimulationStep Float) := record.decode "struct SimulationStep"

end SimulationStep

namespace SimulationReport

/-- The written form. -/
def toValue (report : SimulationReport Float) : Value :=
  .object [("run_id", .string report.runId), ("name", .optString report.name),
    ("total_seconds", .float report.totalSeconds), ("total_work", .word report.totalWork),
    ("steps", .array (report.steps.map SimulationStep.toValue))]

/-- The fields. -/
def record : Record (SimulationReport Float) :=
  Record.pure SimulationReport.mk
    |>.field "run_id" Decoder.string
    |>.optionalField "name" Decoder.string
    |>.field "total_seconds" Decoder.float
    |>.field "total_work" (Decoder.word "u64")
    |>.field "steps" SimulationStep.decode.list

/-- Reads the report of a dry run. -/
def decode : Decoder (SimulationReport Float) := record.decode "struct SimulationReport"

end SimulationReport

namespace Progress

/-- The written form. -/
def toValue (progress : Progress) : Value :=
  .object [("state", .string progress.state.name), ("performed", .word progress.performed),
    ("total", .word progress.total), ("fraction", .float progress.fraction),
    ("current_step", optionalValue Value.nat progress.currentStep),
    ("current_status", .optString progress.currentStatus)]

/-- The fields. -/
def record : Record Progress :=
  Record.pure Progress.mk
    |>.field "state" (Decoder.choice RunState.variants)
    |>.field "performed" (Decoder.word "u64")
    |>.field "total" (Decoder.word "u64")
    |>.field "fraction" Decoder.float
    |>.optionalField "current_step" countDecoder
    |>.optionalField "current_status" Decoder.string

/-- Reads a view of a run. -/
def decode : Decoder Progress := record.decode "struct ProgressSnapshot"

end Progress

namespace Event

/-- The written form, led by the kind of the event. -/
def toValue : Event → Value
  | .stateChanged state =>
      .object [("event", .string "state_changed"), ("state", .string state.name)]
  | .stepStarted step description =>
      .object [("event", .string "step_started"), ("step", .nat step),
        ("description", .string description)]
  | .workPerformed performed total =>
      .object [("event", .string "work_performed"), ("performed", .word performed),
        ("total", .word total)]
  | .stepFinished step status =>
      .object [("event", .string "step_finished"), ("step", .nat step),
        ("status", .string status.name)]
  | .finished report =>
      .object [("event", .string "finished"), ("report", report.toValue)]

/-- A reader of the fields of one kind of event from what stands beside its tag. -/
abbrev Body := Decoder Event

/-- The kinds of events with the readers of their fields. -/
def variants : List (String × Body) :=
  [("state_changed",
      (Record.pure Event.stateChanged
        |>.field "state" (Decoder.choice RunState.variants)).decode
        "struct variant ScanEvent::StateChanged"),
    ("step_started",
      (Record.pure Event.stepStarted
        |>.field "step" countDecoder
        |>.field "description" Decoder.string).decode
        "struct variant ScanEvent::StepStarted"),
    ("work_performed",
      (Record.pure Event.workPerformed
        |>.field "performed" (Decoder.word "u64")
        |>.field "total" (Decoder.word "u64")).decode
        "struct variant ScanEvent::WorkPerformed"),
    ("step_finished",
      (Record.pure Event.stepFinished
        |>.field "step" countDecoder
        |>.field "status" (Decoder.choice StepStatus.variants)).decode
        "struct variant ScanEvent::StepFinished"),
    ("finished",
      (Record.pure Event.finished
        |>.field "report" RunReport.decode).decode
        "struct variant ScanEvent::Finished")]

/-- The reader that a tag stands for. -/
def decodeTag (document : Document) : Except Fault Body :=
  match document with
  | .string name => Decoder.named variants name
  | _ => .error (document.unexpected "variant identifier")

/-- Sets the members beside the tag aside until the end of the object. -/
def gather (closed : Bool) (tag : Option Body) (aside : List (String × Document)) :
    List (String × Document) → Except Fault Event
  | [] => do
      if !closed then throw .malformed
      match tag with
      | some body => body .setAside (.object aside.reverse true)
      | none => throw (.missingField "event")
  | (name, document) :: rest =>
      if name == "event" then
        match tag with
        | some _ => .error (.duplicateField name)
        | none => do gather closed (some (← decodeTag document)) aside rest
      else do
        Decoder.skip document
        gather closed tag ((name, document) :: aside) rest

/-- Reads an event. -/
def decode : Decoder Event := fun _ document =>
  match document with
  | .object members closed => gather closed none [] members
  | .array [] closed => .error (if closed then .missingField "event" else .malformed)
  | .array (tag :: rest) closed => do
      let body ← decodeTag tag
      discard (rest.mapM Decoder.skip)
      if closed then body .setAside (.array rest true) else throw .malformed
  | _ => .error (document.unexpected "internally tagged enum ScanEvent")

end Event

end Scan
