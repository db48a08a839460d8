/-!
# Lifecycle states

A step moves forward through its statuses, a run through its states. Both have a fixed list of
names, which is the only way in which they are written.
-/

namespace Scan

/-- The lifecycle of one step. -/
inductive StepStatus where
  | idle
  | running
  | completed
  | failed
  | aborted
  | simulated
  deriving BEq, DecidableEq, Repr

namespace StepStatus

/-- The written names, in order. -/
def variants : List (String × StepStatus) :=
  [("idle", idle), ("running", running), ("completed", completed), ("failed", failed),
    ("aborted", aborted), ("simulated", simulated)]

/-- The written name. -/
def name : StepStatus → String
  | idle => "idle"
  | running => "running"
  | completed => "completed"
  | failed => "failed"
  | aborted => "aborted"
  | simulated => "simulated"

/-- The name in messages. -/
def title : StepStatus → String
  | idle => "Idle"
  | running => "Running"
  | completed => "Completed"
  | failed => "Failed"
  | aborted => "Aborted"
  | simulated => "Simulated"

/-- Whether the step is over. -/
def isTerminal : StepStatus → Bool
  | idle | running => false
  | _ => true

/-- Whether a step may go from one status to another: it starts or is simulated from idle, and
ends from running. -/
def canAdvance : StepStatus → StepStatus → Bool
  | idle, running | idle, simulated => true
  | running, completed | running, failed | running, aborted => true
  | _, _ => false

/-- A terminal status is never left. -/
theorem canAdvance_of_isTerminal {status : StepStatus} (terminal : status.isTerminal = true)
    (next : StepStatus) : status.canAdvance next = false := by
  cases status <;> cases next <;> simp_all [isTerminal, canAdvance]

end StepStatus

/-- The state of a run as a whole. -/
inductive RunState where
  | idle
  | running
  | paused
  | finished
  | aborted
  | failed
  deriving BEq, DecidableEq, Repr

namespace RunState

/-- The written names, in order. -/
def variants : List (String × RunState) :=
  [("idle", idle), ("running", running), ("paused", paused), ("finished", finished),
    ("aborted", aborted), ("failed", failed)]

/-- The written name. -/
def name : RunState → String
  | idle => "idle"
  | running => "running"
  | paused => "paused"
  | finished => "finished"
  | aborted => "aborted"
  | failed => "failed"

/-- Whether the run is over. -/
def isTerminal : RunState → Bool
  | finished | aborted | failed => true
  | _ => false

/-- Whether a run is in progress. -/
def isActive : RunState → Bool
  | running | paused => true
  | _ => false

end RunState

/-- The state of the dry run, which does not touch the state of the run. -/
inductive SimulationState where
  | idle
  | simulating
  | simulated
  deriving BEq, DecidableEq, Repr

namespace SimulationState

/-- The written names, in order. -/
def variants : List (String × SimulationState) :=
  [("idle", idle), ("simulating", simulating), ("simulated", simulated)]

/-- The written name. -/
def name : SimulationState → String
  | idle => "idle"
  | simulating => "simulating"
  | simulated => "simulated"

end SimulationState

end Scan
