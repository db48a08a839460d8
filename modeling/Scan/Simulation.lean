import Scan.Command
import Scan.Report
import Scan.Simulation.Profile

/-!
# Dry runs

A dry run walks through commands as a run would, without touching a live value. It keeps a value
for every channel that it has heard of, and adds up what the steps are expected to cost.
-/

namespace Scan

/-- What a dry run has found out so far. -/
structure Estimate (α : Type) where
  profile : Profile α
  /-- Where the channels are believed to stand. -/
  values : Table α
  /-- The trace, oldest entry first. -/
  steps : Array (SimulationStep α) := #[]
  totalSeconds : α
  /-- The writes that a run would make, oldest first. -/
  writes : Array (String × α) := #[]

namespace Estimate

variable {α : Type} [Scalar α]

/-- The state before the first step. -/
def start (profile : Profile α) : Estimate α where
  profile := profile
  values := profile.initialValues
  totalSeconds := Scalar.zero

/-- Adds an entry to the trace and its cost to the total. -/
def log (estimate : Estimate α) (label : String) (seconds : α) : Estimate α :=
  { estimate with
    totalSeconds := estimate.totalSeconds + seconds
    steps := estimate.steps.push ⟨label, seconds⟩ }

/-- The time that a channel takes to move to a value: nothing if it is not known where it stands
or how fast it moves. -/
def travelTime (estimate : Estimate α) (channel : String) (value : α) : α :=
  match estimate.values.get? channel, estimate.profile.slewRate? channel with
  | some old, some rate => Scalar.abs (value - old) / rate
  | _, _ => Scalar.zero

/-- Moves a channel to a value. -/
def move (estimate : Estimate α) (channel : String) (value : α) : Estimate α :=
  { estimate with values := estimate.values.insert channel value }

/-- Writes a value to a channel, which its readback follows. -/
def assign (estimate : Estimate α) (channel readback : String) (value : α) : Estimate α :=
  let moved := { estimate.move channel value with
    writes := estimate.writes.push (channel, value) }
  if readback == channel then moved else moved.move readback value

end Estimate

namespace Completion

variable {α : Type} [Scalar α]

/-- The cost of a write: the time for the channel to arrive, if that is waited for. -/
def cost (completion : Completion α) (estimate : Estimate α) (channel : String) (value : α) : α :=
  if completion.wait then estimate.travelTime channel value else Scalar.zero

end Completion

namespace Condition

variable {α : Type} [Scalar α]

/-- Whether a wait for a desired value is over before it begins: the channel is known to satisfy
the condition, which is not relative. -/
def isMet (condition : Condition α) (estimate : Estimate α) (desired : α) : Bool :=
  match estimate.values.get? condition.channel with
  | some value =>
      !condition.comparison.isRelative &&
        condition.comparison.holds value desired condition.tolerance
  | none => false

/-- Where the channel stands after the wait: at the threshold. -/
def target (condition : Condition α) (estimate : Estimate α) (desired : α) : α :=
  match estimate.values.get? condition.channel with
  | some value => condition.comparison.threshold desired value
  | none => desired

/-- A wait for a desired value: free if it is met, else as long as its limit; a wait without a
limit is noted as unbounded. -/
def estimateWait (condition : Condition α) (label : String) (desired : α)
    (estimate : Estimate α) : Estimate α :=
  if condition.isMet estimate desired then estimate.log label Scalar.zero
  else
    let logged := match condition.timeout with
      | some limit => estimate.log label limit.seconds
      | none => estimate.log (label ++ " - unbounded") Scalar.zero
    logged.move condition.channel (condition.target estimate desired)

end Condition

/-- What a dry run asks of its surroundings. -/
structure DryRunner (m : Type → Type) (α : Type) where
  evaluate : String → m (Except EvalError α)
  /-- Told of each command that is reached by its number in depth-first order. The steps in the
  body of a loop have no number. -/
  reach : Nat → m Unit

/-- A dry run in progress. What it has found out outlives a failure. -/
abbrev DryRun (m : Type → Type) (α : Type) := ExceptT ScanError (StateT (Estimate α) m)

namespace DryRunner

variable {m : Type → Type} [Monad m] {α : Type}

/-- The surroundings for steps without a number. -/
def unnumbered (runner : DryRunner m α) : DryRunner m α :=
  { runner with reach := fun _ => pure () }

/-- The value of a quantity. -/
def resolve (runner : DryRunner m α) : Quantity α → DryRun m α α
  | .literal value => pure value
  | .expression text => do
      match ← (runner.evaluate text : m _) with
      | .ok value => pure value
      | .error error => throw (.expression error)

/-- Tells that a command was reached. -/
def arrive (runner : DryRunner m α) (number : Nat) : DryRun m α Unit := do
  (runner.reach number : m _)

end DryRunner

namespace Command

variable {m : Type → Type} [Monad m] {α : Type} [Scalar α]

mutual

/-- Simulates one command of a given number. -/
def simulate (runner : DryRunner m α) (number : Nat) : Command α → DryRun m α Unit
  | .delay description seconds _ => do
      runner.arrive number
      modify (·.log description seconds)
  | .set description assignment => do
      runner.arrive number
      let value ← runner.resolve assignment.value
      modify fun estimate =>
        let seconds := assignment.completion.cost estimate assignment.channel value
        (estimate.assign assignment.channel assignment.completion.readback value).log description
          seconds
  | .wait description condition => do
      runner.arrive number
      let desired ← runner.resolve condition.value
      modify (condition.estimateWait description desired)
  | .loop _ sweep body _ => do
      runner.arrive number
      (List.range sweep.iterations).forM fun iteration => do
        let value := sweep.value iteration
        modify fun estimate =>
          let seconds := sweep.completion.cost estimate sweep.channel value
          (estimate.assign sweep.channel sweep.completion.readback value).log (sweep.label value)
            seconds
        simulateAll runner.unnumbered 0 body
  | .comment description _ => do
      runner.arrive number
      modify (·.log description Scalar.zero)
  | .group _ children _ => do
      runner.arrive number
      simulateAll runner (number + 1) children

/-- Simulates commands in order, up to the first that fails. -/
def simulateAll (runner : DryRunner m α) (number : Nat) : List (Command α) → DryRun m α Unit
  | [] => pure ()
  | command :: rest => do
      simulate runner number command
      simulateAll runner (number + command.monitorCount) rest

end

end Command

end Scan
