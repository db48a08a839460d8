import Scan.Duration
import Scan.Status

/-!
# Monitors

A monitor is what the controlling side sees of a step: its status, since when it waits, and the
latch that ends the wait early. Every wait installs a latch of its own, which is never used again.
A request to skip that comes while the step runs but before it waits is held for its next wait.
-/

namespace Scan

/-- The visible side of one step. -/
structure Monitor where
  description : String
  skippable : Bool
  status : StepStatus := .idle
  /-- When the wait in progress began. -/
  started : Option Instant := none
  /-- Whether each latch has been released, in the order of installation. -/
  latches : Array Bool := #[]
  /-- The latch of the wait in progress. -/
  installed : Option Nat := none
  /-- Whether a request to skip is held for the next wait. -/
  skipPending : Bool := false
  deriving BEq, DecidableEq, Repr, Inhabited

namespace Monitor

/-- Moves to another status, if that is a step forward. -/
def advance (monitor : Monitor) (next : StepStatus) : Monitor :=
  if monitor.status.canAdvance next then { monitor with status := next } else monitor

/-- Installs a fresh latch, which a request that is held releases at once. -/
def installLatch (monitor : Monitor) : Monitor :=
  { monitor with
    latches := monitor.latches.push monitor.skipPending
    installed := some monitor.latches.size
    skipPending := false }

/-- Notes when the wait began. -/
def stampStart (monitor : Monitor) (now : Instant) : Monitor :=
  { monitor with started := some now }

/-- Notes that the wait is over. -/
def clearStart (monitor : Monitor) : Monitor :=
  { monitor with started := none }

/-- Takes the latch out again. -/
def removeLatch (monitor : Monitor) : Monitor :=
  { monitor with installed := none }

/-- Begins a wait. -/
def beginWait (monitor : Monitor) (now : Instant) : Monitor :=
  monitor.installLatch.stampStart now

/-- Ends a wait. -/
def endWait (monitor : Monitor) : Monitor :=
  monitor.clearStart.removeLatch

/-- Whether the step waits. -/
def isWaiting (monitor : Monitor) : Bool :=
  monitor.started.isSome

/-- Whether a latch has been released. -/
def isReleased (monitor : Monitor) (latch : Nat) : Bool :=
  monitor.latches.getD latch false

/-- Whether the latch of the wait in progress has been released. -/
def isCutShort (monitor : Monitor) : Bool :=
  match monitor.installed with
  | some latch => monitor.isReleased latch
  | none => false

/-- Releases a latch for good. -/
def release (monitor : Monitor) (latch : Nat) : Monitor :=
  { monitor with latches := monitor.latches.setIfInBounds latch true }

/-- Whether a request to skip is accepted: the step can be skipped and is running. -/
def acceptsSkip (monitor : Monitor) : Bool :=
  monitor.skippable && monitor.status == .running

/-- Passes an accepted request on: to the installed latch, or to the next wait. -/
def recordSkip (monitor : Monitor) : Monitor :=
  match monitor.installed with
  | some latch => monitor.release latch
  | none => { monitor with skipPending := true }

/-- Asks the step to end its wait now; one that cannot be skipped is left as it is. -/
def requestSkip (monitor : Monitor) : Monitor :=
  if monitor.acceptsSkip then monitor.recordSkip else monitor

/-- How long the step has been waiting. -/
def elapsed? (monitor : Monitor) (now : Instant) : Option Duration :=
  monitor.started.map fun start => Duration.between start now

/-- The text that marks the time in a status line. -/
def elapsedMark : String := ". Elapsed: "

/-- The status line: the description, and while waiting the time since the wait began. -/
def describe (monitor : Monitor) (now : Instant) : String :=
  match monitor.elapsed? now with
  | some elapsed => monitor.description ++ elapsedMark ++ formatSeconds elapsed.seconds
  | none => monitor.description

end Monitor

end Scan
