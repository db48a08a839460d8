import Scan.Error
import Scan.Status

/-!
# Reports and events

What observers are told: the result of a run or of a dry run, a view of a run in progress, and the
events of a run in order.
-/

namespace Scan

/-- The step at which a run stopped early. -/
structure StoppedStep where
  /-- The position in the sequence, from 1. -/
  step : Nat
  description : String
  error : ErrorInfo
  deriving BEq, DecidableEq, Repr

/-- The result of one run. -/
structure RunReport where
  runId : String
  name : Option String
  state : RunState
  stepsCompleted : Nat
  workPerformed : UInt64
  totalWork : UInt64
  elapsedMs : UInt64
  stoppedAt : Option StoppedStep
  deriving BEq, DecidableEq, Repr

/-- One entry of the trace of a dry run. -/
structure SimulationStep (α : Type) where
  label : String
  seconds : α
  deriving BEq, Repr

/-- The result of a dry run. -/
structure SimulationReport (α : Type) where
  runId : String
  name : Option String
  totalSeconds : α
  totalWork : UInt64
  steps : List (SimulationStep α)
  deriving BEq, Repr

/-- A view of a run at one time. -/
structure Progress where
  state : RunState
  performed : UInt64
  total : UInt64
  fraction : Float
  /-- The top-level step being executed, from 1. -/
  currentStep : Option Nat
  currentStatus : Option String
  deriving BEq, Repr

/-- What observers of a run are told as it happens. -/
inductive Event where
  | stateChanged (state : RunState)
  | stepStarted (step : Nat) (description : String)
  | workPerformed (performed total : UInt64)
  | stepFinished (step : Nat) (status : StepStatus)
  | finished (report : RunReport)
  deriving BEq, DecidableEq, Repr

end Scan
