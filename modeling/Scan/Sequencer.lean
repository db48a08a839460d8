import Scan.Command.Compile
import Scan.Control
import Scan.Simulation
import Scan.Worker

/-!
# Sequencers

A sequencer runs one sequence, as often as wanted but once at a time. It is made only of a sequence
that compiles. A run starts by claiming the board and ends with the worker's last task; a dry run
claims the board for the time that it takes and leaves everything else on it alone.
-/

namespace Scan

/-- A sequence that has been compiled, and the board of its runs. -/
structure Sequencer (α : Type) where
  sequence : Sequence
  steps : List (Command α)
  totalWork : UInt64
  /-- The longest time for which a waiting step does not look at the board. -/
  pollInterval : Duration
  board : Board := {}

namespace Sequencer

variable {α : Type}

/-- Compiles a sequence. A sum of work that does not fit a word is laid to the sequence itself. -/
def ofSequence [Scalar α] (sequence : Sequence) (pollInterval : Duration) :
    Except ScanError (Sequencer α) := do
  let steps ← Command.compileAll sequence.steps
  match Command.totalWork? steps with
  | some totalWork => return { sequence, steps, totalWork, pollInterval }
  | none => throw (Defect.workOverflow.error "sequence")

/-- The state of the run. -/
def state (sequencer : Sequencer α) : RunState :=
  sequencer.board.run

/-- The state of the dry run. -/
def simulationState (sequencer : Sequencer α) : SimulationState :=
  sequencer.board.simulation

/-- Whether a run or a dry run is in progress. -/
def isTaken (sequencer : Sequencer α) : Bool :=
  sequencer.board.run.isActive || sequencer.board.simulation == .simulating

/-- The sequencer with another board. -/
def withBoard (sequencer : Sequencer α) (board : Board) : Sequencer α :=
  { sequencer with board := board }

/-! ## Dry runs -/

/-- Claims the board for a dry run. -/
def beginSimulation (sequencer : Sequencer α) : Except ScanError (Sequencer α) :=
  if sequencer.isTaken then .error (.busy "sequence is executing")
  else .ok (sequencer.withBoard { sequencer.board with simulation := .simulating })

/-- The dry run of the steps, told to the surroundings. -/
def simulation [Scalar α] {m : Type → Type} [Monad m] (sequencer : Sequencer α)
    (runner : DryRunner m α) (profile : Profile α) :
    m (Except ScanError Unit × Estimate α) :=
  ((Command.simulateAll runner 0 sequencer.steps).run.run (Estimate.start profile) : m _)

/-- Gives the board back after a dry run. -/
def endSimulation (sequencer : Sequencer α) (result : Except ScanError Unit) : Sequencer α :=
  sequencer.withBoard { sequencer.board with
    simulation := match result with
      | .ok () => .simulated
      | .error _ => .idle }

/-- The report of a dry run. -/
def simulationReport (sequencer : Sequencer α) (runId : String) :
    Except ScanError Unit × Estimate α → Except ScanError (SimulationReport α)
  | (.error error, _) => .error error
  | (.ok (), estimate) => .ok {
      runId := runId
      name := sequencer.sequence.name
      totalSeconds := estimate.totalSeconds
      totalWork := sequencer.totalWork
      steps := estimate.steps.toList }

/-- A whole dry run with an evaluator that is a function of the text. -/
def simulate [Scalar α] (sequencer : Sequencer α) (profile : Profile α)
    (evaluate : String → Except EvalError α) (runId : String) :
    Except ScanError (SimulationReport α) × Sequencer α :=
  match sequencer.beginSimulation with
  | .error error => (.error error, sequencer)
  | .ok claimed =>
      let runner : DryRunner Id α := { evaluate := evaluate, reach := fun _ => () }
      let found := claimed.simulation runner profile
      (claimed.simulationReport runId found, claimed.endSimulation found.1)

/-! ## Runs -/

/-- Claims the board for a run: all requests are taken back, the count of work starts anew and no
step is in progress. The worker that comes with the claim makes the run. -/
def beginRun (sequencer : Sequencer α) (runId : String) :
    Except ScanError (Sequencer α × Worker α) :=
  if sequencer.isTaken then .error (.busy ("sequencer is " ++ sequencer.board.run.name))
  else
    let board := { sequencer.board.resetControl with
      run := .running
      work := WorkCounter.reset sequencer.totalWork
      active := [] }
    .ok (sequencer.withBoard board,
      Worker.ofSteps sequencer.steps sequencer.pollInterval runId sequencer.sequence.name
        sequencer.totalWork)

/-! ## Control -/

/-- Makes a control call at one instant. -/
def perform (sequencer : Sequencer α) (now : Instant) (call : Call) :
    Sequencer α × CallResult :=
  let (board, result) := call.run sequencer.totalWork now sequencer.board
  (sequencer.withBoard board, result)

/-- A view of the run. -/
def progress (sequencer : Sequencer α) (now : Instant) : Progress :=
  let work := sequencer.board.work
  let step := sequencer.board.currentStep
  { state := sequencer.board.run
    performed := work.performed
    total := sequencer.totalWork
    fraction := work.fraction
    currentStep := if 0 < step then some step else none
    currentStatus := sequencer.board.innermost?.map fun id =>
      (sequencer.board.monitor id).describe now }

/-- The call for the progress finds what the board shows at that instant. -/
theorem perform_progress (sequencer : Sequencer α) (now : Instant) :
    sequencer.perform now .progress = (sequencer, .progress (sequencer.progress now)) := by
  unfold perform
  iterate 5 rw [Call.run_of_more rfl]
  cases active : sequencer.board.innermost? with
  | none =>
      rw [Call.run_of_result (by simp only [Call.step, active]; rfl)]
      simp [Call.snapshot, progress, withBoard, active, WorkCounter.fraction]
  | some id =>
      rw [Call.run_of_more (by simp only [Call.step, active]; rfl), Call.run_of_result rfl]
      simp [Call.snapshot, progress, withBoard, active, WorkCounter.fraction]

end Sequencer

end Scan
