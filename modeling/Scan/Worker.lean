import Scan.Board

/-!
# The worker

The worker of a run is a list of tasks, the next one first. A task is one access to the board or
one call to the surroundings; when it is done it may put more tasks in front. After an error only
the tasks that clean up are left. `Worker.next` says what a worker does next on a given board, so
a run is any interleaving of its steps with what the controlling side does to the board.
-/

namespace Scan

/-- What a worker asks of its surroundings. -/
inductive Query (α : Type) where
  | evaluate (expression : String)
  | read (channel : String)
  | write (channel : String) (value : α)
  | clock
  /-- Rests until the latch in a monitor is released or the time is up. -/
  | rest (id : Nat) (limit : Duration)
  deriving Repr

/-- What the surroundings answer. -/
abbrev Query.Answer {α : Type} : Query α → Type
  | .evaluate _ => Except EvalError α
  | .read _ => Except IoError α
  | .write .. => Except IoError Unit
  | .clock => Instant
  | .rest .. => Unit

/-- A condition that a channel is polled for, with a fixed threshold. -/
structure Poll (α : Type) where
  /-- The number of the monitor that shows the wait. -/
  id : Nat
  channel : String
  comparison : Comparison
  threshold : α
  tolerance : α
  limit : Option Duration

/-- Whether a value ends the poll. -/
def Poll.isSatisfied {α : Type} [Scalar α] (poll : Poll α) (value : α) : Bool :=
  poll.comparison.holds value poll.threshold poll.tolerance

/-- What the value of a quantity is wanted for. -/
inductive Purpose (α : Type) where
  | assign (assignment : Assignment α)
  | await (condition : Condition α)

/-- One thing that a worker has to do. -/
inductive Task (α : Type) where
  /-- Stays here while a pause is requested, and fails if an abort is. -/
  | safePoint
  | openStep (step : Nat)
  /-- Tells that a top-level step starts; then come the step and the word that it is over. -/
  | announceStart (step id : Nat) (command : Command α)
  /-- Moves a fresh step to running. -/
  | start (id : Nat) (command : Command α)
  /-- Puts the step on top of the steps in progress; then come its tasks. -/
  | enter (id : Nat) (command : Command α)
  | resolve (id : Nat) (quantity : Quantity α) (purpose : Purpose α)
  /-- Reads where a relative wait starts from. -/
  | baseline (id : Nat) (condition : Condition α) (desired : α)
  | write (channel : String) (value : α)
  | installLatch (id : Nat)
  | stampStart (id : Nat)
  /-- Reckons the end of a delay. -/
  | armDelay (id : Nat) (duration : Duration)
  /-- Fails a delay if an abort is requested. -/
  | heedAbort (id : Nat) (deadline : Instant)
  | checkDeadline (id : Nat) (deadline : Instant)
  | restUntil (id : Nat) (deadline : Instant) (limit : Duration)
  /-- Notes when a poll starts. -/
  | armPoll (poll : Poll α)
  | probe (poll : Poll α) (since : Instant)
  | checkLimit (poll : Poll α) (since : Instant) (limit : Duration)
  | restPoll (poll : Poll α) (since : Instant)
  | clearStart (id : Nat)
  | removeLatch (id : Nat)
  /-- Goes on with a loop at one of its iterations. -/
  | iterate (id : Nat) (sweep : Sweep α) (body : List (Command α)) (iteration : Nat)
  /-- Makes fresh monitors for nested steps; then come the steps. -/
  | nest (body : List (Command α))
  /-- Counts a unit of work that the step of a monitor has done. -/
  | countUnit (id : Nat) (unit : WorkUnit α)
  | announceWork (performed : UInt64)
  /-- Gives a step the status that it ends in. -/
  | settle (id : Nat) (command : Command α)
  /-- Takes the innermost step off the steps in progress. -/
  | leave
  | announceFinish (step id : Nat)
  /-- Notes how a top-level step ended. -/
  | closeStep (step : Nat) (description : String)
  /-- Makes fresh monitors for the top-level steps. -/
  | prepare (steps : List (Command α))
  /-- Notes when the run started. -/
  | stampRun
  /-- Goes on with the top-level steps from one of them on. -/
  | steps (step : Nat) (remaining : List (Nat × Command α))
  | clearStep
  | clearActive
  /-- Writes the report of the run. -/
  | report
  | setState (state : RunState)
  | announce (event : Event)

/-- Whether a task is done even after an error. -/
def Task.cleansUp {α : Type} : Task α → Bool
  | .clearStart _ | .removeLatch _ | .settle _ _ | .leave | .announceFinish _ _ | .closeStep _ _
  | .clearStep | .clearActive | .report | .setState _ | .announce _ => true
  | _ => false

/-- The worker of one run. -/
structure Worker (α : Type) where
  agenda : List (Task α)
  /-- How long a wait goes on without looking at the board. -/
  pollInterval : Duration
  failure : Option ScanError := none
  runId : String := ""
  name : Option String := none
  totalWork : UInt64 := 0
  startedAt : Instant := 0
  /-- The number of top-level steps that were completed. -/
  completed : Nat := 0
  stopped : Option StoppedStep := none
  report : Option RunReport := none

/-- What a worker does next. -/
inductive Next (α : Type) where
  | done
  /-- The worker is held at a safe point. -/
  | held
  /-- One access to the board. -/
  | act (board : Board) (worker : Worker α)
  /-- One call; the answer is used on the board as it is by then. -/
  | call (query : Query α) (resume : query.Answer → Board → Board × Worker α)

namespace Worker

variable {α : Type}

/-- The tasks that are left after an error. -/
def unwind (agenda : List (Task α)) : List (Task α) :=
  agenda.dropWhile fun task => !task.cleansUp

/-- The worker after its first task, with more tasks in front of the others. -/
def proceed (worker : Worker α) (more : List (Task α)) : Worker α :=
  let rest := more ++ worker.agenda.tail
  { worker with agenda := if worker.failure.isSome then unwind rest else rest }

/-- The worker after its first task failed. -/
def fail (worker : Worker α) (error : ScanError) : Worker α :=
  { worker with agenda := unwind worker.agenda.tail, failure := some error }

/-! ## The tasks of commands -/

/-- A wait for a condition, from the latch that can cut it short to its removal. -/
def pollTasks (poll : Poll α) : List (Task α) :=
  [.installLatch poll.id, .stampStart poll.id, .armPoll poll, .clearStart poll.id,
    .removeLatch poll.id]

/-- A write and, if it is waited for, the wait for its readback. -/
def writeTasks (id : Nat) (channel : String) (completion : Completion α) (value : α) :
    List (Task α) :=
  .write channel value ::
    if completion.wait then
      pollTasks ⟨id, completion.readback, .equals, value, completion.tolerance,
        completion.timeout⟩
    else []

/-- A wait for a threshold. -/
def awaitTasks (id : Nat) (condition : Condition α) (threshold : α) : List (Task α) :=
  pollTasks ⟨id, condition.channel, condition.comparison, threshold, condition.tolerance,
    condition.timeout⟩

/-- What follows once a quantity has a value. -/
def purposeTasks (id : Nat) (value : α) : Purpose α → List (Task α)
  | .assign assignment => writeTasks id assignment.channel assignment.completion value
  | .await condition =>
      if condition.comparison.isRelative then [.baseline id condition value]
      else awaitTasks id condition value

/-- Steps in order, each behind a safe point. -/
def nestedTasks (commands : List (Nat × Command α)) : List (Task α) :=
  commands.flatMap fun (id, command) => [.safePoint, .start id command]

/-- What a step does while it is running. -/
def commandTasks (id : Nat) : Command α → List (Task α)
  | .delay _ _ duration =>
      [.installLatch id, .stampStart id, .armDelay id duration, .clearStart id, .removeLatch id]
  | .set _ assignment => [.resolve id assignment.value (.assign assignment)]
  | .wait _ condition => [.resolve id condition.value (.await condition)]
  | .loop _ sweep body _ => [.iterate id sweep body 0]
  | .comment .. => []
  | .group _ children _ => nestedTasks (Board.numbered (id + 1) children)

/-- One iteration of a loop, and the next one after it. -/
def iterationTasks [Scalar α] (id : Nat) (sweep : Sweep α) (body : List (Command α))
    (iteration : Nat) : List (Task α) :=
  [.safePoint] ++ writeTasks id sweep.channel sweep.completion (sweep.value iteration) ++
    [.countUnit id (.value sweep iteration), .nest body, .iterate id sweep body (iteration + 1)]

/-- The first of the remaining top-level steps, and the others after it. -/
def stepTasks (step : Nat) : List (Nat × Command α) → List (Task α)
  | [] => []
  | (id, command) :: rest =>
      [.safePoint, .openStep step, .announceStart step id command,
        .closeStep step command.description, .steps (step + 1) rest]

/-- The status that a step ends in. -/
def finalStatus : Option ScanError → StepStatus
  | none => .completed
  | some .interrupted => .aborted
  | some _ => .failed

/-- The state that a run ends in. -/
def finalState : Option ScanError → RunState
  | none => .finished
  | some .interrupted => .aborted
  | some _ => .failed

/-- Notes how a top-level step ended: it is completed, or the run stopped at it. -/
def closing (worker : Worker α) (step : Nat) (description : String) : Worker α :=
  match worker.failure with
  | none => { worker with completed := step }
  | some error => { worker with stopped := some ⟨step, description, error.info⟩ }

/-- The report of a run at its end. -/
def reportAt (worker : Worker α) (board : Board) (now : Instant) : RunReport where
  runId := worker.runId
  name := worker.name
  state := finalState worker.failure
  stepsCompleted := worker.completed
  workPerformed := board.work.performed
  totalWork := worker.totalWork
  elapsedMs := (Duration.between worker.startedAt now).milliseconds
  stoppedAt := worker.stopped

/-- The refusal to run a step a second time. -/
def refusal (monitor : Monitor) : ScanError :=
  .busy ("'" ++ monitor.description ++ "' is " ++ monitor.status.title ++ " and cannot run again")

/-- What a worker does with an expression's value, or its lack of one. -/
def resolved (worker : Worker α) (id : Nat) (purpose : Purpose α) :
    Except EvalError α → Worker α
  | .ok value => worker.proceed (purposeTasks id value purpose)
  | .error error => worker.fail (.expression error)

/-- What a delay does when it is told the time: it ends, or rests for another while. -/
def checkedDeadline (worker : Worker α) (id : Nat) (deadline now : Instant) : Worker α :=
  if deadline ≤ now then worker.proceed []
  else
    worker.proceed
      [.restUntil id deadline ((Duration.between now deadline).min worker.pollInterval)]

/-- What a poll does with a reading: it ends, checks its limit, or rests for a while. -/
def probed [Scalar α] (worker : Worker α) (poll : Poll α) (since : Instant) :
    Except IoError α → Worker α
  | .error error => worker.fail (.liveIo poll.channel error)
  | .ok value =>
      if poll.isSatisfied value then worker.proceed []
      else
        match poll.limit with
        | some limit => worker.proceed [.checkLimit poll since limit]
        | none => worker.proceed [.restPoll poll since]

/-- What a poll does when it is told the time: it fails at its limit, or rests for a while. -/
def checkedLimit (worker : Worker α) (poll : Poll α) (since : Instant) (limit : Duration)
    (now : Instant) : Worker α :=
  if limit.nanoseconds ≤ now - since then worker.fail (.timeout poll.channel limit.seconds)
  else worker.proceed [.restPoll poll since]

/-- What a worker does next. -/
def next [Scalar α] (board : Board) (worker : Worker α) : Next α :=
  match worker.agenda with
  | [] => .done
  | task :: _ =>
    match task with
    | .safePoint =>
        if board.control.blocks then .held
        else
          match board.control.verdict with
          | .ok () => .act board (worker.proceed [])
          | .error error => .act board (worker.fail error)
    | .openStep step => .act { board with currentStep := step } (worker.proceed [])
    | .announceStart step id command =>
        .act (board.publish (.stepStarted step command.description))
          (worker.proceed [.start id command, .announceFinish step id])
    | .start id command =>
        if (board.monitor id).status.canAdvance .running then
          .act (board.update id (·.advance .running)) (worker.proceed [.enter id command])
        else .act board (worker.fail (refusal (board.monitor id)))
    | .enter id command =>
        .act (board.enter id)
          (worker.proceed (commandTasks id command ++ [.settle id command, .leave]))
    | .resolve id quantity purpose =>
        match quantity with
        | .literal value => .act board (worker.proceed (purposeTasks id value purpose))
        | .expression text =>
            .call (.evaluate text) fun answer board => (board, worker.resolved id purpose answer)
    | .baseline id condition desired =>
        .call (.read condition.channel) fun answer board =>
          match answer with
          | .ok initial =>
              (board, worker.proceed
                (awaitTasks id condition (condition.comparison.threshold desired initial)))
          | .error error => (board, worker.fail (.liveIo condition.channel error))
    | .write channel value =>
        .call (.write channel value) fun answer board =>
          match answer with
          | .ok () => (board, worker.proceed [])
          | .error error => (board, worker.fail (.liveIo channel error))
    | .installLatch id => .act (board.update id Monitor.installLatch) (worker.proceed [])
    | .stampStart id =>
        .call .clock fun now board => (board.update id (·.stampStart now), worker.proceed [])
    | .armDelay id duration =>
        .call .clock fun now board =>
          (board, worker.proceed [.heedAbort id (now + duration.nanoseconds)])
    | .heedAbort id deadline =>
        if board.control.aborted then .act board (worker.fail .interrupted)
        else .act board (worker.proceed [.checkDeadline id deadline])
    | .checkDeadline id deadline =>
        .call .clock fun now board => (board, worker.checkedDeadline id deadline now)
    | .restUntil id deadline limit =>
        .call (.rest id limit) fun _ board =>
          (board, worker.proceed
            (if (board.monitor id).isCutShort then [] else [.heedAbort id deadline]))
    | .armPoll poll =>
        .call .clock fun now board => (board, worker.proceed [.safePoint, .probe poll now])
    | .probe poll since =>
        .call (.read poll.channel) fun answer board => (board, worker.probed poll since answer)
    | .checkLimit poll since limit =>
        .call .clock fun now board => (board, worker.checkedLimit poll since limit now)
    | .restPoll poll since =>
        .call (.rest poll.id worker.pollInterval) fun _ board =>
          (board, worker.proceed
            (if (board.monitor poll.id).isCutShort then [] else [.safePoint, .probe poll since]))
    | .clearStart id => .act (board.update id Monitor.clearStart) (worker.proceed [])
    | .removeLatch id => .act (board.update id Monitor.removeLatch) (worker.proceed [])
    | .iterate id sweep body iteration =>
        if iteration < sweep.iterations then
          .act board (worker.proceed (iterationTasks id sweep body iteration))
        else .act board (worker.proceed [])
    | .nest body =>
        .act (board.addCommands body)
          (worker.proceed (nestedTasks (Board.numbered board.monitors.size body)))
    | .countUnit _ _ =>
        .act { board with work := board.work.add 1 }
          (worker.proceed [.announceWork (board.work.performed + 1)])
    | .announceWork performed =>
        .act (board.publish (.workPerformed performed board.work.total)) (worker.proceed [])
    | .settle id command =>
        .act (board.update id (·.advance (finalStatus worker.failure)))
          (worker.proceed
            (if worker.failure.isNone && !command.isComposite then [.countUnit id (.leaf command)]
            else []))
    | .leave => .act board.leave (worker.proceed [])
    | .announceFinish step id =>
        .act (board.publish (.stepFinished step (board.monitor id).status)) (worker.proceed [])
    | .closeStep step description => .act board ((worker.closing step description).proceed [])
    | .prepare steps =>
        .act (board.addCommands steps)
          (worker.proceed [.stampRun, .steps 1 (Board.numbered board.monitors.size steps)])
    | .stampRun =>
        .call .clock fun now board => (board, { worker.proceed [] with startedAt := now })
    | .steps step remaining => .act board (worker.proceed (stepTasks step remaining))
    | .clearStep => .act { board with currentStep := 0 } (worker.proceed [])
    | .clearActive => .act { board with active := [] } (worker.proceed [])
    | .report =>
        .call .clock fun now board =>
          let report := worker.reportAt board now
          (board, { worker.proceed [.setState report.state, .announce (.stateChanged report.state),
              .announce (.finished report)] with report := some report })
    | .setState state => .act { board with run := state } (worker.proceed [])
    | .announce event => .act (board.publish event) (worker.proceed [])

/-- The worker of a whole run, from the word that it started to its report. -/
def ofSteps (steps : List (Command α)) (pollInterval : Duration) (runId : String)
    (name : Option String) (totalWork : UInt64) : Worker α where
  agenda := [.announce (.stateChanged .running), .prepare steps, .clearStep, .clearActive, .report]
  pollInterval := pollInterval
  runId := runId
  name := name
  totalWork := totalWork

/-- The worker of a single step, whose monitors have been made. -/
def ofCommand (id : Nat) (command : Command α) (pollInterval : Duration) : Worker α where
  agenda := [.start id command]
  pollInterval := pollInterval

end Worker

end Scan
