import Scan.Board.Bus
import Scan.Command
import Scan.Monitor

/-!
# The board

The board holds what the worker of a run and the controlling side share: the states, the requests
to pause and abort, the count of work, the steps in progress and the events. Every function here
is one access to one part of it.
-/

namespace Scan

/-- The requests that the worker honours at its safe points. -/
structure RunControl where
  paused : Bool := false
  aborted : Bool := false
  deriving BEq, DecidableEq, Repr

namespace RunControl

/-- Whether a worker at a safe point has to stay there. -/
def blocks (control : RunControl) : Bool :=
  control.paused && !control.aborted

/-- What a safe point says to a worker that passes it. -/
def verdict (control : RunControl) : Except ScanError Unit :=
  if control.aborted then .error .interrupted else .ok ()

end RunControl

/-- The units of work done in the current run, out of how many. -/
structure WorkCounter where
  performed : UInt64 := 0
  total : UInt64 := 0
  deriving BEq, DecidableEq, Repr

namespace WorkCounter

/-- Starts counting anew. -/
def reset (total : UInt64) : WorkCounter :=
  { performed := 0, total := total }

/-- Counts some units. -/
def add (counter : WorkCounter) (count : UInt64) : WorkCounter :=
  { counter with performed := counter.performed + count }

/-- A count as a share of a total: zero of nothing, and never more than one. -/
def share (performed total : UInt64) : Float :=
  if total == 0 then 0
  else
    let ratio := performed.toFloat / total.toFloat
    if ratio < 1 then ratio else 1

/-- The share of the work that is done. -/
def fraction (counter : WorkCounter) : Float :=
  share counter.performed counter.total

end WorkCounter

/-- What the worker and the controlling side share. -/
structure Board where
  run : RunState := .idle
  simulation : SimulationState := .idle
  control : RunControl := {}
  work : WorkCounter := {}
  /-- The monitors of the steps in progress by number, innermost first. -/
  active : List Nat := []
  /-- Every monitor that was ever made, by number. -/
  monitors : Array Monitor := #[]
  bus : Bus := {}
  /-- The top-level step in progress, from 1, or 0. -/
  currentStep : Nat := 0
  deriving BEq, Repr

namespace Board

/-- Publishes an event. -/
def publish (board : Board) (event : Event) : Board :=
  { board with bus := board.bus.publish event }

/-- The monitor of a number. -/
def monitor (board : Board) (id : Nat) : Monitor :=
  board.monitors.getD id default

/-- Changes one monitor. -/
def update (board : Board) (id : Nat) (change : Monitor → Monitor) : Board :=
  { board with monitors := board.monitors.modify id change }

/-- Adds a monitor under the number `board.monitors.size`. -/
def addMonitor (board : Board) (description : String) (skippable : Bool) : Board :=
  { board with monitors := board.monitors.push { description, skippable } }

/-- Puts a step on top of the steps in progress. -/
def enter (board : Board) (id : Nat) : Board :=
  { board with active := id :: board.active }

/-- Takes the innermost step off. -/
def leave (board : Board) : Board :=
  { board with active := board.active.tail }

/-- The number of the innermost step in progress. -/
def innermost? (board : Board) : Option Nat :=
  board.active.head?

/-- Asks for a pause. -/
def requestPause (board : Board) : Board :=
  { board with control := { board.control with paused := true } }

/-- Takes the request to pause back. -/
def requestResume (board : Board) : Board :=
  { board with control := { board.control with paused := false } }

/-- Asks for an abort. -/
def requestAbort (board : Board) : Board :=
  { board with control := { board.control with aborted := true } }

/-- Takes all requests back. -/
def resetControl (board : Board) : Board :=
  { board with control := {} }

/-! ## Monitors of commands -/

mutual

/-- Adds the monitors of a command in depth-first order, its own one first. -/
def addCommand {α : Type} (board : Board) : Command α → Board
  | .group description children work =>
      let group := Command.group description children work
      let board := board.addMonitor description group.isSkippable
      addCommands board children
  | command => board.addMonitor command.description command.isSkippable

/-- Adds the monitors of commands in order. -/
def addCommands {α : Type} (board : Board) : List (Command α) → Board
  | [] => board
  | command :: rest => addCommands (addCommand board command) rest

end

/-- Commands with the numbers of their monitors, when the first one has number `first`. -/
def numbered {α : Type} (first : Nat) : List (Command α) → List (Nat × Command α)
  | [] => []
  | command :: rest => (first, command) :: numbered (first + command.monitorCount) rest

end Board

end Scan
