import Scan.Board

/-!
# Control calls

What the controlling side does to a run in progress: pause, resume, abort, skip the step in
progress, and look at the progress. A call is a sequence of accesses to the board, between which
the worker and other calls may act; `Call.step` makes one access. `Board.pause` and its like make
all of them at once.
-/

namespace Scan

/-- A call by what it has to do next, together with what it has found out. -/
inductive Call where
  | pause
  | resume
  /-- Publishes the change of state that the call has made. -/
  | announce (state : RunState)
  | abort
  | skip
  /-- Looks for the innermost step. -/
  | skipInnermost
  /-- Asks the monitor whether it accepts the request. -/
  | skipTest (id : Nat)
  /-- Passes the request on to the monitor. -/
  | skipRecord (id : Nat)
  | progress
  | progressState (step : Nat)
  | progressPerformed (step : Nat) (state : RunState)
  | progressTotal (step : Nat) (state : RunState) (performed : UInt64)
  | progressShare (step : Nat) (state : RunState) (performed total : UInt64)
  | progressInnermost (step : Nat) (state : RunState) (performed : UInt64) (fraction : Float)
  | progressStatus (step : Nat) (state : RunState) (performed : UInt64) (fraction : Float)
      (id : Nat)
  deriving BEq, Repr

/-- What a call comes back with. -/
inductive CallResult where
  | done
  | skipped (accepted : Bool)
  | progress (found : Progress)
  deriving BEq, Repr

namespace Call

/-- What is left of a call after one access. -/
inductive Rest where
  | more (call : Call)
  | result (result : CallResult)
  deriving BEq, Repr

/-- A view of the run put together from what a call has found out. -/
def snapshot (totalWork : UInt64) (step : Nat) (state : RunState) (performed : UInt64)
    (fraction : Float) (status : Option String) : CallResult :=
  .progress {
    state := state
    performed := performed
    total := totalWork
    fraction := fraction
    currentStep := if 0 < step then some step else none
    currentStatus := status }

/-- One access to the board. A pause is only taken by a run that is running, a resume only by one
that is paused, an abort and a skip only by a run in progress. -/
def step (totalWork : UInt64) (now : Instant) (board : Board) : Call → Board × Rest
  | pause =>
      if board.run == .running then
        ({ board with run := .paused }.requestPause, .more (announce .paused))
      else (board, .result .done)
  | resume =>
      if board.run == .paused then
        ({ board with run := .running }.requestResume, .more (announce .running))
      else (board, .result .done)
  | announce state => (board.publish (.stateChanged state), .result .done)
  | abort =>
      if board.run.isActive then (board.requestAbort, .result .done) else (board, .result .done)
  | skip =>
      if board.run.isActive then (board, .more skipInnermost)
      else (board, .result (.skipped false))
  | skipInnermost =>
      match board.innermost? with
      | some id => (board, .more (skipTest id))
      | none => (board, .result (.skipped false))
  | skipTest id =>
      if (board.monitor id).acceptsSkip then (board, .more (skipRecord id))
      else (board, .result (.skipped false))
  | skipRecord id => (board.update id Monitor.recordSkip, .result (.skipped true))
  | progress => (board, .more (progressState board.currentStep))
  | progressState step => (board, .more (progressPerformed step board.run))
  | progressPerformed step state => (board, .more (progressTotal step state board.work.performed))
  | progressTotal step state performed =>
      (board, .more (progressShare step state performed board.work.total))
  | progressShare step state performed total =>
      (board, .more (progressInnermost step state performed
        (WorkCounter.share board.work.performed total)))
  | progressInnermost step state performed fraction =>
      match board.innermost? with
      | some id => (board, .more (progressStatus step state performed fraction id))
      | none => (board, .result (snapshot totalWork step state performed fraction none))
  | progressStatus step state performed fraction id =>
      (board, .result (snapshot totalWork step state performed fraction
        (some ((board.monitor id).describe now))))

/-- A bound on the number of accesses that a call still makes. -/
def remaining : Call → Nat
  | announce _ | abort | skipRecord _ | progressStatus .. => 1
  | pause | resume | skipTest _ | progressInnermost .. => 2
  | skipInnermost | progressShare .. => 3
  | skip | progressTotal .. => 4
  | progressPerformed .. => 5
  | progressState _ => 6
  | progress => 7

theorem remaining_lt_of_step {totalWork : UInt64} {now : Instant} {board after : Board}
    {call next : Call} (stepped : call.step totalWork now board = (after, .more next)) :
    next.remaining < call.remaining := by
  cases call <;> simp only [step] at stepped <;> (try split at stepped) <;>
    simp_all [remaining] <;> (obtain ⟨_, rfl⟩ := stepped; simp)

/-- Makes all the accesses of a call at once. -/
def run (totalWork : UInt64) (now : Instant) (board : Board) (call : Call) :
    Board × CallResult :=
  match _stepped : call.step totalWork now board with
  | (board, .result result) => (board, result)
  | (board, .more next) => run totalWork now board next
termination_by call.remaining
decreasing_by exact remaining_lt_of_step _stepped

theorem run_of_result {totalWork : UInt64} {now : Instant} {board after : Board} {call : Call}
    {result : CallResult} (stepped : call.step totalWork now board = (after, .result result)) :
    call.run totalWork now board = (after, result) := by
  rw [run]
  split <;> simp_all

theorem run_of_more {totalWork : UInt64} {now : Instant} {board after : Board} {call next : Call}
    (stepped : call.step totalWork now board = (after, .more next)) :
    call.run totalWork now board = next.run totalWork now after := by
  rw [run]
  split <;> simp_all

end Call

end Scan
