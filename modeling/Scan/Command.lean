import Scan.Comparison
import Scan.Duration
import Scan.Parameter
import Scan.Work

/-!
# Commands

A command is a descriptor that has been checked and understood. It never changes: what happens to
it in a run is kept elsewhere.
-/

namespace Scan

/-- How a write is brought to an end. -/
structure Completion (α : Type) where
  /-- Whether the write is waited for. -/
  wait : Bool
  /-- The channel that confirms the write. -/
  readback : String
  /-- How near to the written value the readback has to come. -/
  tolerance : α
  /-- How long the wait may take, if it is bounded. -/
  timeout : Option Duration
  deriving BEq, Repr

/-- A write of a value to a channel. -/
structure Assignment (α : Type) where
  channel : String
  value : Quantity α
  completion : Completion α
  deriving BEq, Repr

/-- A wait for a channel. -/
structure Condition (α : Type) where
  channel : String
  comparison : Comparison
  value : Quantity α
  tolerance : α
  timeout : Option Duration
  deriving BEq, Repr

/-- A range of values of a channel. -/
structure Sweep (α : Type) where
  channel : String
  start : α
  stop : α
  step : α
  completion : Completion α
  /-- The number of values, zero when the step points away from the end. -/
  iterations : Nat
  deriving BEq, Repr

/-- A step that can be simulated and run. Loops and groups carry the work units of a whole pass
through them. -/
inductive Command (α : Type) where
  | delay (description : String) (seconds : α) (duration : Duration)
  | set (description : String) (assignment : Assignment α)
  | wait (description : String) (condition : Condition α)
  | loop (description : String) (sweep : Sweep α) (body : List (Command α)) (work : UInt64)
  | comment (description : String) (text : String)
  | group (description : String) (children : List (Command α)) (work : UInt64)
  deriving BEq, Repr

/-- What one unit of work is: a step without nested steps that is complete, or a value of a loop
that has been written. -/
inductive WorkUnit (α : Type) where
  | leaf (command : Command α)
  | value (sweep : Sweep α) (iteration : Nat)
  deriving BEq, Repr

namespace Completion

variable {α : Type} [Scalar α]

/-- The part of a description that tells of the wait. -/
def suffix (completion : Completion α) : String :=
  if !completion.wait then ""
  else
    let limit := match completion.timeout with
      | some limit => ", timeout " ++ Scalar.text (limit.seconds : α) ++ " sec"
      | none => ""
    " (wait for '" ++ completion.readback ++ "' ±" ++ Scalar.text completion.tolerance ++ limit ++
      ")"

end Completion

namespace Sweep

variable {α : Type} [Scalar α]

/-- The value of one iteration. -/
def value (sweep : Sweep α) (iteration : Nat) : α :=
  sweep.start + Scalar.ofNat iteration * sweep.step

/-- The values in order. -/
def values (sweep : Sweep α) : List α :=
  (List.range sweep.iterations).map sweep.value

/-- How a loop value is called in the trace of a dry run. -/
def label (sweep : Sweep α) (value : α) : String :=
  "Loop '" ++ sweep.channel ++ "' = " ++ Scalar.text value

end Sweep

namespace Command

variable {α : Type}

/-- The name of the kind. -/
def kind : Command α → String
  | .delay .. => "delay"
  | .set .. => "set"
  | .wait .. => "wait"
  | .loop .. => "loop"
  | .comment .. => "comment"
  | .group .. => "group"

/-- What the command is called in reports. -/
def description : Command α → String
  | .delay description .. | .set description .. | .wait description .. | .loop description ..
  | .comment description .. | .group description .. => description

/-- Whether the command has a wait that can be cut short. -/
def isSkippable : Command α → Bool
  | .delay .. | .wait .. => true
  | .set _ assignment => assignment.completion.wait
  | .loop .. | .comment .. | .group .. => false

/-- Whether the command counts its work through the steps nested in it. -/
def isComposite : Command α → Bool
  | .loop .. | .group .. => true
  | _ => false

/-- The units of work of a complete pass. -/
def workUnits : Command α → UInt64
  | .loop _ _ _ work | .group _ _ work => work
  | _ => 1

/-- The work units of commands in order, if they fit a word. -/
def totalWork? (commands : List (Command α)) : Option UInt64 :=
  Work.sum? (commands.map workUnits)

mutual

/-- How many monitors a command needs: one for itself and those of a group's children. A loop
makes those of its body anew for every value. -/
def monitorCount : Command α → Nat
  | .group _ children _ => 1 + monitorCounts children
  | _ => 1

/-- How many monitors commands need together. -/
def monitorCounts : List (Command α) → Nat
  | [] => 0
  | command :: rest => monitorCount command + monitorCounts rest

end

end Command

end Scan
