import Mathlib.Data.List.Forall2
import Scan.Proofs.Course

/-!
# Runs that recur

What is done on a board recurs on another one that has more monitors before the first one, at other
times and under another name: the tasks of the one worker are those of the other, step by step, as
long as both get the same answers. Of a time only matters whether a limit is reached by it.
-/

namespace Scan

variable {α : Type}

/-! ## Boards -/

/-- A monitor apart from the time when its wait began. -/
def Monitor.undated (monitor : Monitor) : Monitor :=
  { monitor with started := none }

/-- A board that shows what another one shows, on monitors that come behind some others. -/
structure Board.Recurs (base : Nat) (board later : Board) : Prop where
  run : later.run = board.run
  simulation : later.simulation = .simulating ↔ board.simulation = .simulating
  control : later.control = board.control
  work : later.work = board.work
  active : later.active = board.active.map (base + ·)
  size : later.monitors.size = base + board.monitors.size
  monitors : ∀ id, (later.monitor (base + id)).undated = (board.monitor id).undated
  currentStep : later.currentStep = board.currentStep

theorem Board.monitor_update (board : Board) (id : Nat) (change : Monitor → Monitor) (other : Nat) :
    (board.update id change).monitor other =
      if id = other ∧ other < board.monitors.size then change (board.monitor other)
      else board.monitor other := by
  simp only [monitor, update, Array.getD_eq_getD_getElem?, Array.getElem?_modify]
  by_cases here : id = other
  · by_cases inBounds : other < board.monitors.size <;> simp [here, inBounds]
  · simp [here]

theorem Board.monitor_addMonitor (board : Board) (description : String) (skippable : Bool)
    (id : Nat) :
    (board.addMonitor description skippable).monitor id =
      if id = board.monitors.size then { description, skippable } else board.monitor id := by
  simp only [monitor, addMonitor, Array.getD_eq_getD_getElem?, Array.getElem?_push]
  split <;> rfl

namespace Board.Recurs

variable {base : Nat} {board later : Board}

/-- What is read of a monitor apart from the time of its wait recurs. -/
theorem congr {β : Type} (recurs : board.Recurs base later) (read : Monitor → β)
    (timeless : ∀ monitor, read monitor.undated = read monitor) (id : Nat) :
    read (later.monitor (base + id)) = read (board.monitor id) := by
  rw [← timeless, recurs.monitors id, timeless]

theorem status (recurs : board.Recurs base later) (id : Nat) :
    (later.monitor (base + id)).status = (board.monitor id).status :=
  recurs.congr Monitor.status (fun _ => rfl) id

theorem isCutShort (recurs : board.Recurs base later) (id : Nat) :
    (later.monitor (base + id)).isCutShort = (board.monitor id).isCutShort :=
  recurs.congr Monitor.isCutShort (fun _ => rfl) id

theorem acceptsSkip (recurs : board.Recurs base later) (id : Nat) :
    (later.monitor (base + id)).acceptsSkip = (board.monitor id).acceptsSkip :=
  recurs.congr Monitor.acceptsSkip (fun _ => rfl) id

theorem refusal (recurs : board.Recurs base later) (id : Nat) :
    Worker.refusal (later.monitor (base + id)) = Worker.refusal (board.monitor id) :=
  recurs.congr Worker.refusal (fun _ => rfl) id

theorem publish (recurs : board.Recurs base later) (event event' : Event) :
    (board.publish event).Recurs base (later.publish event') :=
  { recurs with }

theorem enter (recurs : board.Recurs base later) (id : Nat) :
    (board.enter id).Recurs base (later.enter (base + id)) :=
  { recurs with active := congrArg ((base + id) :: ·) recurs.active }

theorem leave (recurs : board.Recurs base later) : board.leave.Recurs base later.leave :=
  { recurs with active := by simp [Board.leave, recurs.active, List.map_tail] }

/-- A change of a monitor that makes no difference by the time of its wait recurs. -/
theorem update (recurs : board.Recurs base later) (id : Nat) {change change' : Monitor → Monitor}
    (same : ∀ monitor monitor', monitor'.undated = monitor.undated →
      (change' monitor').undated = (change monitor).undated) :
    (board.update id change).Recurs base (later.update (base + id) change') := by
  refine { recurs with size := ?_, monitors := fun other => ?_ }
  · rw [size_update, size_update, recurs.size]
  · have inBounds : base + other < later.monitors.size ↔ other < board.monitors.size := by
      rw [recurs.size]
      omega
    simp only [monitor_update, inBounds, Nat.add_left_cancel_iff]
    split
    · exact same _ _ (recurs.monitors other)
    · exact recurs.monitors other

theorem advance (recurs : board.Recurs base later) (id : Nat) (status : StepStatus) :
    (board.update id (·.advance status)).Recurs base
      (later.update (base + id) (·.advance status)) := by
  refine recurs.update id fun monitor monitor' same => ?_
  have through : ∀ monitor : Monitor,
      (monitor.advance status).undated = monitor.undated.advance status := by
    intro monitor
    unfold Monitor.advance
    change _ = if monitor.status.canAdvance status = true then _ else _
    split <;> rfl
  rw [through, through, same]

theorem addMonitor (recurs : board.Recurs base later) (description : String) (skippable : Bool) :
    (board.addMonitor description skippable).Recurs base
      (later.addMonitor description skippable) := by
  refine { recurs with size := ?_, monitors := fun id => ?_ }
  · simp [Board.addMonitor, recurs.size, Nat.add_assoc]
  · simp only [monitor_addMonitor, recurs.size, Nat.add_left_cancel_iff]
    split
    · rfl
    · exact recurs.monitors id

end Board.Recurs

mutual

theorem Board.Recurs.addCommand {base : Nat} : (command : Command α) → {board later : Board} →
    board.Recurs base later → (board.addCommand command).Recurs base (later.addCommand command)
  | .group description children work, _, _, recurs => by
      rw [Board.addCommand, Board.addCommand]
      exact addCommands children (recurs.addMonitor _ _)
  | .delay .., _, _, recurs | .set .., _, _, recurs | .wait .., _, _, recurs
  | .loop .., _, _, recurs | .comment .., _, _, recurs => recurs.addMonitor _ _

/-- Making monitors recurs. -/
theorem Board.Recurs.addCommands {base : Nat} : (commands : List (Command α)) →
    {board later : Board} → board.Recurs base later →
      (board.addCommands commands).Recurs base (later.addCommands commands)
  | [], _, _, recurs => recurs
  | command :: rest, _, _, recurs => addCommands rest (addCommand command recurs)

end

/-! ## Tasks -/

/-- The times and names by which a task of a later run differs from that of an earlier one. -/
structure Dating where
  time : Instant := 0
  limit : Duration := ⟨0⟩
  runId : String := ""
  elapsedMs : UInt64 := 0

/-- The event of a later run. -/
def Event.later (dating : Dating) : Event → Event
  | .finished report =>
      .finished { report with runId := dating.runId, elapsedMs := dating.elapsedMs }
  | event => event

def Poll.later (base : Nat) (poll : Poll α) : Poll α :=
  { poll with id := base + poll.id }

/-- The task of a later run, the monitors of which come behind some others. -/
def Task.later (base : Nat) (dating : Dating) : Task α → Task α
  | .announceStart step id command => .announceStart step (base + id) command
  | .start id command => .start (base + id) command
  | .enter id command => .enter (base + id) command
  | .resolve id quantity purpose => .resolve (base + id) quantity purpose
  | .baseline id condition desired => .baseline (base + id) condition desired
  | .installLatch id => .installLatch (base + id)
  | .stampStart id => .stampStart (base + id)
  | .armDelay id duration => .armDelay (base + id) duration
  | .heedAbort id _ => .heedAbort (base + id) dating.time
  | .checkDeadline id _ => .checkDeadline (base + id) dating.time
  | .restUntil id _ _ => .restUntil (base + id) dating.time dating.limit
  | .armPoll poll => .armPoll (poll.later base)
  | .probe poll _ => .probe (poll.later base) dating.time
  | .checkLimit poll _ limit => .checkLimit (poll.later base) dating.time limit
  | .restPoll poll _ => .restPoll (poll.later base) dating.time
  | .clearStart id => .clearStart (base + id)
  | .removeLatch id => .removeLatch (base + id)
  | .iterate id sweep body iteration => .iterate (base + id) sweep body iteration
  | .countUnit id unit => .countUnit (base + id) unit
  | .settle id command => .settle (base + id) command
  | .announceFinish step id => .announceFinish step (base + id)
  | .steps step remaining => .steps step (remaining.map fun pair => (base + pair.1, pair.2))
  | .announce event => .announce (event.later dating)
  | task => task

/-- A task that does what another one does, at any time. -/
def Task.Recurs (base : Nat) (task later : Task α) : Prop :=
  ∃ dating, later = task.later base dating

@[simp] theorem Event.bare_later (dating : Dating) (event : Event) :
    (event.later dating).bare = event.bare := by
  cases event <;> rfl

@[simp] theorem Task.cleansUp_later (base : Nat) (dating : Dating) (task : Task α) :
    (task.later base dating).cleansUp = task.cleansUp := by
  cases task <;> rfl

@[simp] theorem Task.asks?_later (base : Nat) (dating : Dating) (task : Task α) :
    (task.later base dating).asks? = task.asks? := by
  cases task with
  | resolve id quantity purpose => cases quantity <;> rfl
  | _ => rfl

/-! ## What is heard -/

/-- Whether a time is up by the moment that a task is told, if the task looks for that. -/
def Task.timeUp (now : Instant) : Task α → Bool
  | .checkDeadline _ deadline => decide (deadline ≤ now)
  | .checkLimit _ since limit => decide (limit.nanoseconds ≤ now - since)
  | _ => false

/-- What a deed hears as an answer: of a time no more than whether it is up. -/
def Deed.heard (deed : Deed α) : Option (Reply α) :=
  match deed.reply with
  | some (.told now) => some (.told (deed.task.timeUp now).toNat)
  | reply => reply

section Hearing

variable {task later : Task α} {reply reply' : Option (Reply α)} {now : Instant}

/-- Deeds that hear the same get the same reply, unless it is a time. -/
theorem Deed.reply_of_heard (same : Deed.heard ⟨later, reply'⟩ = Deed.heard ⟨task, reply⟩)
    (timeless : ∀ now, reply ≠ some (.told now)) : reply' = reply := by
  rcases reply with _ | _ | _ | _ | now | _ <;> rcases reply' with _ | _ | _ | _ | now' | _ <;>
    first | exact same | exact absurd rfl (timeless now) | cases same

/-- If the reply is a time, both find the same about it. -/
theorem Deed.told_of_heard
    (same : Deed.heard ⟨later, reply'⟩ = Deed.heard ⟨task, some (.told now)⟩) :
    ∃ now', reply' = some (.told now') ∧ later.timeUp now' = task.timeUp now := by
  rcases reply' with _ | _ | _ | _ | now' | _ <;> try cases same
  refine ⟨now', rfl, ?_⟩
  have flags : (later.timeUp now').toNat = (task.timeUp now).toNat :=
    Reply.told.inj (Option.some.inj same)
  revert flags
  cases later.timeUp now' <;> cases task.timeUp now <;> decide

end Hearing

/-! ## Tasks of a later run -/

/-- Tasks that do in order what others do. -/
abbrev Worker.TasksRecur (base : Nat) : List (Task α) → List (Task α) → Prop :=
  List.Forall₂ (Task.Recurs base)

theorem Board.map_later_numbered (base id : Nat) (commands : List (Command α)) :
    (Board.numbered id commands).map (fun pair => (base + pair.1, pair.2)) =
      Board.numbered (base + id) commands := by
  induction commands generalizing id with
  | nil => rfl
  | cons command rest ih => rw [numbered, numbered, List.map_cons, ih, Nat.add_assoc]

namespace Worker

variable (base id : Nat) (dating : Dating)

theorem tasksRecur_map (tasks : List (Task α)) :
    TasksRecur base tasks (tasks.map (Task.later base dating)) := by
  induction tasks with
  | nil => exact .nil
  | cons task rest ih => exact .cons ⟨dating, rfl⟩ ih

theorem map_later_writeTasks (channel : String) (completion : Completion α) (value : α) :
    (writeTasks id channel completion value).map (Task.later base dating) =
      writeTasks (base + id) channel completion value := by
  unfold writeTasks
  split <;> rfl

theorem map_later_purposeTasks (value : α) (purpose : Purpose α) :
    (purposeTasks id value purpose).map (Task.later base dating) =
      purposeTasks (base + id) value purpose := by
  cases purpose with
  | assign => exact map_later_writeTasks base id dating _ _ _
  | await =>
      simp only [purposeTasks]
      split <;> rfl

theorem map_later_nestedTasks (commands : List (Nat × Command α)) :
    (nestedTasks commands).map (Task.later base dating) =
      nestedTasks (commands.map fun pair => (base + pair.1, pair.2)) := by
  induction commands with
  | nil => rfl
  | cons pair rest ih =>
      obtain ⟨id, command⟩ := pair
      rw [nestedTasks_cons, List.map_cons, List.map_cons, ih, List.map_cons, nestedTasks_cons]
      rfl

theorem map_later_commandTasks (command : Command α) :
    (commandTasks id command).map (Task.later base dating) = commandTasks (base + id) command := by
  cases command with
  | group _ children _ =>
      rw [commandTasks, commandTasks, map_later_nestedTasks, Board.map_later_numbered,
        Nat.add_assoc]
  | _ => rfl

theorem map_later_iterationTasks [Scalar α] (sweep : Sweep α) (body : List (Command α))
    (iteration : Nat) :
    (iterationTasks id sweep body iteration).map (Task.later base dating) =
      iterationTasks (base + id) sweep body iteration := by
  rw [iterationTasks, iterationTasks, List.map_append, List.map_append, map_later_writeTasks]
  rfl

theorem map_later_stepTasks (step : Nat) (remaining : List (Nat × Command α)) :
    (stepTasks step remaining).map (Task.later base dating) =
      stepTasks step (remaining.map fun pair => (base + pair.1, pair.2)) := by
  cases remaining <;> rfl

variable {base} {agenda later : List (Task α)}

theorem TasksRecur.tail (recurs : TasksRecur base agenda later) :
    TasksRecur base agenda.tail later.tail := by
  cases recurs with
  | nil => exact .nil
  | cons _ behind => exact behind

/-- Unwinding drops the same of tasks that recur. -/
theorem TasksRecur.unwind (recurs : TasksRecur base agenda later) :
    TasksRecur base (unwind agenda) (Worker.unwind later) := by
  induction recurs with
  | nil => exact .nil
  | @cons task _ rest _ own behind ih =>
      obtain ⟨dating, rfl⟩ := own
      cases cleans : task.cleansUp with
      | true =>
          rw [unwind_cons_of_cleansUp cleans, unwind_cons_of_cleansUp (by simpa using cleans)]
          exact .cons ⟨dating, rfl⟩ behind
      | false =>
          rw [unwind_cons_of_not_cleansUp cleans,
            unwind_cons_of_not_cleansUp (by simpa using cleans)]
          exact ih

/-- A worker that has to do what another one has, and has noted the same apart from names and
times. -/
structure Recurs (base : Nat) (worker later : Worker α) : Prop where
  agenda : TasksRecur base worker.agenda later.agenda
  pollInterval : later.pollInterval = worker.pollInterval
  failure : later.failure = worker.failure
  name : later.name = worker.name
  totalWork : later.totalWork = worker.totalWork
  completed : later.completed = worker.completed
  stopped : later.stopped = worker.stopped
  report : later.report.map RunReport.bare = worker.report.map RunReport.bare

end Worker

/-! ## Steps of a later run -/

section Steps

variable [Scalar α] {base : Nat} {board after board' : Board} {worker next worker' : Worker α}
variable {task task' : Task α} {rest rest' more : List (Task α)} {reply reply' : Option (Reply α)}
variable {error : ScanError}

/-- A monitor whose wait has begun, at whatever time. -/
theorem Board.Recurs.stampStart (boards : board.Recurs base board') (id : Nat)
    (now now' : Instant) : (board.update id (·.stampStart now)).Recurs base
      (board'.update (base + id) (·.stampStart now')) :=
  boards.update id fun _ _ same => same

theorem Board.Recurs.installLatch (boards : board.Recurs base board') (id : Nat) :
    (board.update id Monitor.installLatch).Recurs base
      (board'.update (base + id) Monitor.installLatch) :=
  boards.update id fun _ _ same => congrArg Monitor.installLatch same

theorem Board.Recurs.clearStart (boards : board.Recurs base board') (id : Nat) :
    (board.update id Monitor.clearStart).Recurs base
      (board'.update (base + id) Monitor.clearStart) :=
  boards.update id fun _ _ same => same

theorem Board.Recurs.removeLatch (boards : board.Recurs base board') (id : Nat) :
    (board.update id Monitor.removeLatch).Recurs base
      (board'.update (base + id) Monitor.removeLatch) :=
  boards.update id fun _ _ same => congrArg Monitor.removeLatch same

omit [Scalar α] in
/-- What a worker reports recurs apart from its name and its duration. -/
theorem Worker.Recurs.reportAt (workers : worker.Recurs base worker')
    (boards : board.Recurs base board') (now now' : Instant) :
    Event.finished (worker'.reportAt board' now') =
      (Event.finished (worker.reportAt board now)).later
        { runId := worker'.runId
          elapsedMs := (worker'.reportAt board' now').elapsedMs } := by
  simp [Event.later, Worker.reportAt, workers.failure, workers.completed, workers.name,
    workers.totalWork, workers.stopped, boards.work]

/-- What succeeds in a run succeeds in a later one that hears the same, and comes to the same. -/
theorem Task.recurs_of_spawns (spawns : task.Spawns board worker reply after more)
    (boards : board.Recurs base board') (workers : worker.Recurs base worker')
    (recurs : task.Recurs base task')
    (heard : Deed.heard ⟨task', reply'⟩ = Deed.heard ⟨task, reply⟩) :
    ∃ after' more', task'.Spawns board' worker' reply' after' more' ∧
      after.Recurs base after' ∧ Worker.TasksRecur base more more' := by
  obtain ⟨dating, rfl⟩ := recurs
  have same := Deed.reply_of_heard heard
  cases spawns with
  | safePoint running free =>
      cases same nofun
      exact ⟨_, _, .safePoint (boards.control ▸ running) (boards.control ▸ free), boards, .nil⟩
  | openStep step =>
      cases same nofun
      exact ⟨_, _, .openStep step, { boards with currentStep := rfl }, .nil⟩
  | announceStart step id command =>
      cases same nofun
      exact ⟨_, _, .announceStart step _ command, boards.publish _ _,
        Worker.tasksRecur_map base {} [.start id command, .announceFinish step id]⟩
  | start id command fresh =>
      cases same nofun
      exact ⟨_, _, .start _ command (boards.status id ▸ fresh), boards.advance id _,
        Worker.tasksRecur_map base {} [.enter id command]⟩
  | enter id command =>
      cases same nofun
      refine ⟨_, _, .enter _ command, boards.enter id, ?_⟩
      rw [← Worker.map_later_commandTasks base id {}]
      exact List.rel_append (Worker.tasksRecur_map ..)
        (Worker.tasksRecur_map base {} [.settle id command, .leave])
  | literal id value purpose =>
      cases same nofun
      refine ⟨_, _, .literal _ value purpose, boards, ?_⟩
      rw [← Worker.map_later_purposeTasks base id {}]
      exact Worker.tasksRecur_map ..
  | evaluated id text purpose value =>
      cases same nofun
      refine ⟨_, _, .evaluated _ text purpose value, boards, ?_⟩
      rw [← Worker.map_later_purposeTasks base id {}]
      exact Worker.tasksRecur_map ..
  | baseline id condition desired initial =>
      cases same nofun
      exact ⟨_, _, .baseline _ condition desired initial, boards,
        Worker.tasksRecur_map base {} (Worker.awaitTasks id condition _)⟩
  | write channel value =>
      cases same nofun
      exact ⟨_, _, .write channel value, boards, .nil⟩
  | installLatch id =>
      cases same nofun
      exact ⟨_, _, .installLatch _, boards.installLatch id, .nil⟩
  | stampStart id now =>
      obtain ⟨now', rfl, -⟩ := Deed.told_of_heard heard
      exact ⟨_, _, .stampStart _ now', boards.stampStart id now now', .nil⟩
  | armDelay id duration now =>
      obtain ⟨now', rfl, -⟩ := Deed.told_of_heard heard
      exact ⟨_, _, .armDelay _ duration now', boards, .cons ⟨{ time := _ }, rfl⟩ .nil⟩
  | heedAbort id deadline free =>
      cases same nofun
      exact ⟨_, _, .heedAbort _ _ (boards.control ▸ free), boards, .cons ⟨dating, rfl⟩ .nil⟩
  | deadlinePassed id deadline now passed =>
      obtain ⟨now', rfl, up⟩ := Deed.told_of_heard heard
      have passed' : dating.time ≤ now' := by simpa [Task.later, Task.timeUp, passed] using up
      exact ⟨_, _, .deadlinePassed _ _ now' passed', boards, .nil⟩
  | deadlineAhead id deadline now ahead =>
      obtain ⟨now', rfl, up⟩ := Deed.told_of_heard heard
      have ahead' : ¬ dating.time ≤ now' := by simpa [Task.later, Task.timeUp, ahead] using up
      exact ⟨_, _, .deadlineAhead _ _ now' ahead', boards,
        .cons ⟨{ time := dating.time, limit := _ }, rfl⟩ .nil⟩
  | delayCut id deadline limit cut =>
      cases same nofun
      exact ⟨_, _, .delayCut _ _ _ ((boards.isCutShort id).trans cut), boards, .nil⟩
  | delayGoesOn id deadline limit uncut =>
      cases same nofun
      exact ⟨_, _, .delayGoesOn _ _ _ ((boards.isCutShort id).trans uncut), boards,
        .cons ⟨dating, rfl⟩ .nil⟩
  | armPoll poll now =>
      obtain ⟨now', rfl, -⟩ := Deed.told_of_heard heard
      exact ⟨_, _, .armPoll _ now', boards,
        Worker.tasksRecur_map base { time := now' } [.safePoint, .probe poll now]⟩
  | satisfied poll since value holds =>
      cases same nofun
      exact ⟨_, _, .satisfied (poll.later base) _ value holds, boards, .nil⟩
  | limited poll since value limit fails bounded =>
      cases same nofun
      exact ⟨_, _, .limited (poll.later base) _ value limit fails bounded, boards,
        .cons ⟨dating, rfl⟩ .nil⟩
  | unlimited poll since value fails unbounded =>
      cases same nofun
      exact ⟨_, _, .unlimited (poll.later base) _ value fails unbounded, boards,
        .cons ⟨dating, rfl⟩ .nil⟩
  | withinLimit poll since limit now within =>
      obtain ⟨now', rfl, up⟩ := Deed.told_of_heard heard
      have within' : ¬ limit.nanoseconds ≤ now' - dating.time := by
        simpa [Task.later, Task.timeUp, within] using up
      exact ⟨_, _, .withinLimit (poll.later base) _ limit now' within', boards,
        .cons ⟨dating, rfl⟩ .nil⟩
  | pollCut poll since cut =>
      cases same nofun
      exact ⟨_, _, .pollCut (poll.later base) _ ((boards.isCutShort poll.id).trans cut), boards,
        .nil⟩
  | pollGoesOn poll since uncut =>
      cases same nofun
      exact ⟨_, _, .pollGoesOn (poll.later base) _ ((boards.isCutShort poll.id).trans uncut),
        boards, Worker.tasksRecur_map base dating [.safePoint, .probe poll since]⟩
  | clearStart id =>
      cases same nofun
      exact ⟨_, _, .clearStart _, boards.clearStart id, .nil⟩
  | removeLatch id =>
      cases same nofun
      exact ⟨_, _, .removeLatch _, boards.removeLatch id, .nil⟩
  | round id sweep body iteration more =>
      cases same nofun
      refine ⟨_, _, .round _ sweep body iteration more, boards, ?_⟩
      rw [← Worker.map_later_iterationTasks base id {}]
      exact Worker.tasksRecur_map ..
  | roundsOver id sweep body iteration ended =>
      cases same nofun
      exact ⟨_, _, .roundsOver _ sweep body iteration ended, boards, .nil⟩
  | nest body =>
      cases same nofun
      refine ⟨_, _, .nest body, boards.addCommands body, ?_⟩
      rw [boards.size, ← Board.map_later_numbered, ← Worker.map_later_nestedTasks base {}]
      exact Worker.tasksRecur_map ..
  | countUnit id unit =>
      cases same nofun
      refine ⟨_, _, .countUnit _ unit, { boards with work := by rw [boards.work] }, ?_⟩
      rw [boards.work]
      exact Worker.tasksRecur_map base {} [.announceWork _]
  | announceWork performed =>
      cases same nofun
      exact ⟨_, _, .announceWork performed, boards.publish _ _, .nil⟩
  | settleLeaf id command sound leaf =>
      cases same nofun
      exact ⟨_, _, .settleLeaf _ command (workers.failure.trans sound) leaf, boards.advance id _,
        Worker.tasksRecur_map base {} [.countUnit id (.leaf command)]⟩
  | settle id command silent =>
      cases same nofun
      have settled := boards.advance id (Worker.finalStatus worker.failure)
      rw [← workers.failure] at silent settled
      rw [← workers.failure]
      exact ⟨_, _, .settle _ command silent, settled, .nil⟩
  | leave =>
      cases same nofun
      exact ⟨_, _, .leave, boards.leave, .nil⟩
  | announceFinish step id =>
      cases same nofun
      exact ⟨_, _, .announceFinish step _, boards.publish _ _, .nil⟩
  | closeStep step description =>
      cases same nofun
      exact ⟨_, _, .closeStep step description, boards, .nil⟩
  | prepare steps =>
      cases same nofun
      refine ⟨_, _, .prepare steps, boards.addCommands steps, ?_⟩
      rw [boards.size, ← Board.map_later_numbered]
      exact Worker.tasksRecur_map base {} [.stampRun, .steps 1 _]
  | stampRun now =>
      obtain ⟨now', rfl, -⟩ := Deed.told_of_heard heard
      exact ⟨_, _, .stampRun now', boards, .nil⟩
  | steps step remaining =>
      cases same nofun
      refine ⟨_, _, .steps step _, boards, ?_⟩
      rw [← Worker.map_later_stepTasks base {}]
      exact Worker.tasksRecur_map ..
  | clearStep =>
      cases same nofun
      exact ⟨_, _, .clearStep, { boards with currentStep := rfl }, .nil⟩
  | clearActive =>
      cases same nofun
      exact ⟨_, _, .clearActive, { boards with active := rfl }, .nil⟩
  | report now =>
      obtain ⟨now', rfl, -⟩ := Deed.told_of_heard heard
      refine ⟨_, _, .report now', boards, ?_⟩
      rw [workers.reportAt boards now now', workers.failure]
      exact .cons ⟨{}, rfl⟩ (.cons ⟨{}, rfl⟩ (.cons ⟨_, rfl⟩ .nil))
  | setState state =>
      cases same nofun
      exact ⟨_, _, .setState state, { boards with run := rfl }, .nil⟩
  | announce event =>
      cases same nofun
      exact ⟨_, _, .announce _, boards.publish _ _, .nil⟩

omit [Scalar α] in
/-- What fails in a run fails in a later one that hears the same, with the same error. -/
theorem Task.recurs_of_fails (fails : task.Fails board reply error)
    (boards : board.Recurs base board') (recurs : task.Recurs base task')
    (heard : Deed.heard ⟨task', reply'⟩ = Deed.heard ⟨task, reply⟩) :
    task'.Fails board' reply' error := by
  obtain ⟨dating, rfl⟩ := recurs
  have same := Deed.reply_of_heard heard
  cases fails with
  | safePoint aborted =>
      cases same nofun
      exact .safePoint (boards.control ▸ aborted)
  | refused id command used =>
      cases same nofun
      rw [← boards.refusal id]
      exact .refused _ command (boards.status id ▸ used)
  | evaluated id text purpose error =>
      cases same nofun
      exact .evaluated _ text purpose error
  | baseline id condition desired error =>
      cases same nofun
      exact .baseline _ condition desired error
  | write channel value error =>
      cases same nofun
      exact .write channel value error
  | heedAbort id deadline aborted =>
      cases same nofun
      exact .heedAbort _ _ (boards.control ▸ aborted)
  | probe poll since error =>
      cases same nofun
      exact .probe (poll.later base) _ error
  | timeout poll since limit now expired =>
      obtain ⟨now', rfl, up⟩ := Deed.told_of_heard heard
      have expired' : limit.nanoseconds ≤ now' - dating.time := by
        simpa [Task.later, Task.timeUp, expired] using up
      exact .timeout (poll.later base) _ limit now' expired'

namespace Worker.Recurs

omit [Scalar α] in
theorem proceed {more' : List (Task α)} (workers : worker.Recurs base worker')
    (tasks : TasksRecur base more more') :
    (worker.proceed more).Recurs base (worker'.proceed more') := by
  have whole : TasksRecur base (more ++ worker.agenda.tail) (more' ++ worker'.agenda.tail) :=
    List.rel_append tasks workers.agenda.tail
  refine { workers with agenda := ?_ }
  simp only [Worker.proceed, workers.failure]
  split
  · exact whole.unwind
  · exact whole

omit [Scalar α] in
theorem fail (workers : worker.Recurs base worker') (error : ScanError) :
    (worker.fail error).Recurs base (worker'.fail error) :=
  { workers with agenda := workers.agenda.tail.unwind, failure := rfl }

omit [Scalar α] in
theorem closing (workers : worker.Recurs base worker') (step : Nat) (description : String) :
    (worker.closing step description).Recurs base (worker'.closing step description) := by
  cases failed : worker.failure with
  | none =>
      have failed' : worker'.failure = none := workers.failure.trans failed
      simp only [Worker.closing, failed, failed']
      exact { workers with failure := rfl, completed := rfl }
  | some error =>
      have failed' : worker'.failure = some error := workers.failure.trans failed
      simp only [Worker.closing, failed, failed']
      exact { workers with failure := rfl, stopped := rfl }

omit [Scalar α] in
/-- What is noted of a task recurs apart from names and times. -/
theorem noting (workers : worker.Recurs base worker') (boards : board.Recurs base board')
    (recurs : task.Recurs base task')
    (heard : Deed.heard ⟨task', reply'⟩ = Deed.heard ⟨task, reply⟩) :
    (worker.noting board task reply).Recurs base (worker'.noting board' task' reply') := by
  obtain ⟨dating, rfl⟩ := recurs
  have same := Deed.reply_of_heard heard
  cases task with
  | closeStep step description => exact workers.closing step description
  | stampRun =>
      rcases reply with _ | _ | _ | _ | now | _
      case some.told =>
        obtain ⟨now', rfl, -⟩ := Deed.told_of_heard heard
        exact { workers with }
      all_goals
        cases same nofun
        exact workers
  | report =>
      rcases reply with _ | _ | _ | _ | now | _
      case some.told =>
        obtain ⟨now', rfl, -⟩ := Deed.told_of_heard heard
        have reports := workers.reportAt boards now now'
        refine { workers with report := congrArg some ?_ }
        exact Event.finished.inj ((congrArg Event.bare reports).trans (Event.bare_later ..))
      all_goals
        cases same nofun
        exact workers
  | _ => exact workers

end Worker.Recurs

/-- A step of a run is one of a later run that hears the same, and comes to the same. -/
theorem Worker.Recurs.exists_step? (workers : worker.Recurs base worker')
    (boards : board.Recurs base board') (agenda : worker.agenda = task :: rest)
    (agenda' : worker'.agenda = task' :: rest')
    (heard : Deed.heard ⟨task', reply'⟩ = Deed.heard ⟨task, reply⟩)
    (stepped : worker.step? board reply = some (after, next)) :
    ∃ after' next', worker'.step? board' reply' = some (after', next') ∧
      after.Recurs base after' ∧ next.Recurs base next' := by
  have both := workers.agenda
  rw [agenda, agenda'] at both
  obtain ⟨recurs, -⟩ := List.forall₂_cons.mp both
  obtain ⟨_, _, same, result⟩ := Worker.step?_cases stepped
  obtain ⟨rfl, rfl⟩ := List.cons.inj (agenda.symm.trans same)
  rcases result with ⟨more, spawns, rfl⟩ | ⟨error, fails, rfl, rfl⟩
  · obtain ⟨after', more', spawns', boards', tasks⟩ :=
      Task.recurs_of_spawns spawns boards workers recurs heard
    exact ⟨after', _, Worker.step?_of_spawns agenda' spawns', boards',
      (workers.noting boards recurs heard).proceed tasks⟩
  · have fails' := Task.recurs_of_fails fails boards recurs heard
    exact ⟨board', _, Worker.step?_of_fails agenda' fails', boards, workers.fail error⟩

omit [Scalar α] in
/-- Replies that are heard alike fit tasks that do the same alike. -/
theorem Task.Recurs.fits (recurs : task.Recurs base task')
    (heard : Deed.heard ⟨task', reply'⟩ = Deed.heard ⟨task, reply⟩) :
    task'.fits reply' = task.fits reply := by
  obtain ⟨dating, rfl⟩ := recurs
  have query (reply : Option (Reply α)) : (task.later base dating).fits reply = task.fits reply := by
    cases task with
    | resolve id quantity purpose => cases quantity <;> rfl
    | restUntil => rcases reply with _ | _ | _ | _ | _ | _ <;> rfl
    | _ => rfl
  rw [query]
  rcases reply with _ | _ | _ | _ | now | _
  case some.told =>
    obtain ⟨now', rfl, -⟩ := Deed.told_of_heard heard
    unfold Task.fits
    rcases task.query? ⟨0⟩ with _ | _ | _ | _ | _ | _ <;> rfl
  all_goals rw [Deed.reply_of_heard heard nofun]

namespace Worker.Recurs

omit [Scalar α] in
/-- Both workers are through, or both have something to do next. -/
theorem agenda_cases (workers : worker.Recurs base worker') :
    (worker.agenda = [] ∧ worker'.agenda = []) ∨
      ∃ task rest task' rest', worker.agenda = task :: rest ∧ worker'.agenda = task' :: rest' ∧
        task.Recurs base task' := by
  have both := workers.agenda
  revert both
  generalize worker.agenda = agenda
  generalize worker'.agenda = agenda'
  rintro (_ | ⟨own, _⟩)
  · exact .inl ⟨rfl, rfl⟩
  · exact .inr ⟨_, _, _, _, rfl, rfl, own⟩

/-- A later run is held where the other one is. -/
theorem next_eq_held (workers : worker.Recurs base worker') (boards : board.Recurs base board') :
    worker'.next board' = .held ↔ worker.next board = .held := by
  rw [Worker.next_eq_held, Worker.next_eq_held, boards.control]
  rcases workers.agenda_cases with ⟨done, done'⟩ | ⟨task, rest, _, rest', agenda, agenda', own⟩
  · simp [done, done']
  · obtain ⟨dating, rfl⟩ := own
    cases task <;> simp [agenda, agenda', Task.later]

/-- Either both runs make a step and come to the same, or neither of them does. -/
theorem step? (workers : worker.Recurs base worker') (boards : board.Recurs base board')
    (heard : worker'.agenda.head?.map (Deed.heard ⟨·, reply'⟩) =
      worker.agenda.head?.map (Deed.heard ⟨·, reply⟩)) :
    Option.Rel (fun made made' => made.1.Recurs base made'.1 ∧ made.2.Recurs base made'.2)
      (worker.step? board reply) (worker'.step? board' reply') := by
  rcases workers.agenda_cases with ⟨done, done'⟩ | ⟨task, rest, task', rest', agenda, agenda', own⟩
  · simp only [Worker.step?, Worker.next, done, done', Next.take?_done]
    exact .none
  · have alike : Deed.heard ⟨task', reply'⟩ = Deed.heard ⟨task, reply⟩ := by
      simpa [agenda, agenda'] using heard
    have together : (worker'.step? board' reply').isSome = (worker.step? board reply).isSome := by
      by_cases held : worker.next board = .held
      · have held' := (workers.next_eq_held boards).mpr held
        simp [Worker.step?, held, held']
      · have free' := mt (workers.next_eq_held boards).mp held
        rw [Worker.isSome_step? agenda held, Worker.isSome_step? agenda' free', own.fits alike]
    cases stepped : worker.step? board reply with
    | none =>
        have stays : worker'.step? board' reply' = none := by simpa [stepped] using together
        rw [stays]
        exact .none
    | some made =>
        obtain ⟨after', next', stepped', recurs⟩ :=
          workers.exists_step? boards agenda agenda' alike stepped
        rw [stepped']
        exact .some recurs

end Worker.Recurs

end Steps

end Scan
