import Scan.Proofs.Braking
import Scan.Proofs.Untimed

/-!
# Runs apart from numbers and times

What is left of a run when its monitors are numbered from zero, nobody looks at its waits and every
clock stands still is a run again: each step of the one is a step of the other, except for those by
which a delay waits for its end, and these leave everything as it is. So what a run does otherwise
depends neither on the time nor on what was there before it.
-/

namespace Scan

variable {α : Type}

/-! ## What is left -/

/-- A monitor apart from its waits. -/
def Monitor.bare (monitor : Monitor) : Monitor where
  description := monitor.description
  skippable := monitor.skippable
  status := monitor.status

/-- The work and the steps of a board, with the monitors from a number on. -/
def Board.bare (first : Nat) (board : Board) : Board where
  work := board.work
  monitors := (board.monitors.extract first board.monitors.size).map Monitor.bare

/-- A report apart from its name and its duration. -/
def RunReport.bare (report : RunReport) : RunReport :=
  { report with runId := "", elapsedMs := 0 }

/-- An event apart from names and durations. -/
def Event.bare : Event → Event
  | .finished report => .finished report.bare
  | event => event

/-- A reply apart from the time. -/
def Reply.bare : Reply α → Reply α
  | .told _ => .told 0
  | reply => reply

/-- A poll with the number of its monitor counted from another one. -/
def Poll.bare (first : Nat) (poll : Poll α) : Poll α :=
  { poll with id := poll.id - first }

/-- A task apart from times, with monitors counted from a number on. Of a delay that waits for its
end only the last look is left. -/
def Task.bare (first : Nat) : Task α → Task α
  | .announceStart step id command => .announceStart step (id - first) command
  | .start id command => .start (id - first) command
  | .enter id command => .enter (id - first) command
  | .resolve id quantity purpose => .resolve (id - first) quantity purpose
  | .baseline id condition desired => .baseline (id - first) condition desired
  | .installLatch id => .installLatch (id - first)
  | .stampStart id => .stampStart (id - first)
  | .armDelay id duration => .armDelay (id - first) duration
  | .heedAbort .. | .checkDeadline .. | .restUntil .. => .checkDeadline 0 0
  | .armPoll poll => .armPoll (poll.bare first)
  | .probe poll _ => .probe (poll.bare first) 0
  | .checkLimit poll _ limit => .checkLimit (poll.bare first) 0 limit
  | .restPoll poll _ => .restPoll (poll.bare first) 0
  | .clearStart id => .clearStart (id - first)
  | .removeLatch id => .removeLatch (id - first)
  | .iterate id sweep body iteration => .iterate (id - first) sweep body iteration
  | .countUnit id unit => .countUnit (id - first) unit
  | .settle id command => .settle (id - first) command
  | .announceFinish step id => .announceFinish step (id - first)
  | .steps step remaining =>
      .steps step (remaining.map fun pair => (pair.1 - first, pair.2))
  | .announce event => .announce event.bare
  | task => task

/-- A worker apart from names and times, with monitors counted from a number on. -/
def Worker.bare (first : Nat) (worker : Worker α) : Worker α :=
  { worker with
    agenda := worker.agenda.map (Task.bare first)
    runId := ""
    startedAt := 0
    report := worker.report.map RunReport.bare }

/-- Whether a deed is one by which a delay waits for its end. -/
def Deed.isIdle (deed : Deed α) : Bool :=
  match deed.task with
  | .heedAbort .. | .restUntil .. => true
  | _ => deed.isEarly

/-! ## What is left of what is left -/

@[simp] theorem RunReport.bare_bare (report : RunReport) : report.bare.bare = report.bare := rfl

@[simp] theorem Event.bare_bare (event : Event) : event.bare.bare = event.bare := by
  cases event <;> rfl

@[simp] theorem Task.bare_bare (first : Nat) (task : Task α) :
    (task.bare first).bare 0 = task.bare first := by
  cases task with
  | steps => simp [bare]
  | announce => simp [bare]
  | _ => rfl

@[simp] theorem Task.cleansUp_bare (first : Nat) (task : Task α) :
    (task.bare first).cleansUp = task.cleansUp := by
  cases task <;> rfl

theorem Monitor.bare_advance (monitor : Monitor) (status : StepStatus) :
    (monitor.advance status).bare = monitor.bare.advance status := by
  unfold Monitor.advance
  change _ = if monitor.status.canAdvance status = true then _ else _
  split <;> rfl

namespace Board

variable {board : Board} {first id : Nat}

@[simp] theorem size_bare (board : Board) (first : Nat) :
    (board.bare first).monitors.size = board.monitors.size - first := by
  simp [bare]

theorem getElem?_bare (board : Board) (first id : Nat) :
    (board.bare first).monitors[id]? = (board.monitors[first + id]?).map Monitor.bare := by
  simp only [bare, Array.getElem?_map, Array.getElem?_extract, Nat.min_self]
  split
  · rfl
  · rename_i beyond
    rw [Array.getElem?_eq_none (by omega)]

theorem monitor_bare (beyond : first ≤ id) :
    (board.bare first).monitor (id - first) = (board.monitor id).bare := by
  rw [monitor, monitor, Array.getD_eq_getD_getElem?, Array.getD_eq_getD_getElem?, getElem?_bare,
    Nat.add_sub_cancel' beyond]
  cases board.monitors[id]? <;> rfl

/-- What is left of a board is known by its monitors. -/
theorem bare_eq_of_monitors {other : Board}
    (plain : other = { work := board.work, monitors := other.monitors })
    (monitors : ∀ id, (board.monitors[first + id]?).map Monitor.bare = other.monitors[id]?) :
    board.bare first = other := by
  have same : (board.bare first).monitors = other.monitors := by
    apply Array.ext_getElem?
    intro id
    rw [getElem?_bare, monitors id]
  rw [plain, ← same]
  rfl

@[simp] theorem bare_bare (board : Board) (first : Nat) :
    (board.bare first).bare 0 = board.bare first := by
  refine bare_eq_of_monitors rfl fun id => ?_
  rw [Nat.zero_add, getElem?_bare]
  cases board.monitors[first + id]? <;> rfl

/-- What a change does to the waits of a monitor is not left. -/
theorem bare_update_of_bare (id : Nat) {change : Monitor → Monitor}
    (kept : ∀ monitor, (change monitor).bare = monitor.bare) :
    (board.update id change).bare first = board.bare first := by
  refine bare_eq_of_monitors rfl fun other => ?_
  rw [update, Array.getElem?_modify, getElem?_bare]
  split
  · cases board.monitors[first + other]? <;> simp [kept]
  · rfl

/-- What changes do to waits is not left, whether it is done before or after. -/
theorem bare_update_waits {change plain : Monitor → Monitor}
    (kept : ∀ monitor, (change monitor).bare = monitor.bare)
    (keptPlain : ∀ monitor, (plain monitor).bare = monitor.bare) :
    ((board.bare first).update (id - first) plain).bare 0 =
      (board.update id change).bare first := by
  rw [bare_update_of_bare _ keptPlain, bare_update_of_bare _ kept, bare_bare]

/-- A change of status is the same change of what is left. -/
theorem bare_update_advance (beyond : first ≤ id) (status : StepStatus) :
    (board.update id (·.advance status)).bare first =
      (board.bare first).update (id - first) (·.advance status) := by
  refine bare_eq_of_monitors rfl fun other => ?_
  rw [update, update, Array.getElem?_modify, Array.getElem?_modify, getElem?_bare]
  by_cases here : id = first + other
  · rw [if_pos here, if_pos (by omega)]
    cases board.monitors[first + other]? <;> simp [Monitor.bare_advance]
  · rw [if_neg here, if_neg (by omega)]

theorem bare_update_status (beyond : first ≤ id) (status : StepStatus) :
    ((board.bare first).update (id - first) (·.advance status)).bare 0 =
      (board.update id (·.advance status)).bare first := by
  rw [bare_update_advance beyond, bare_update_advance (Nat.zero_le _), bare_bare, Nat.sub_zero]

theorem bare_addMonitor (size : first ≤ board.monitors.size) (description : String)
    (skippable : Bool) : (board.addMonitor description skippable).bare first =
      (board.bare first).addMonitor description skippable := by
  refine bare_eq_of_monitors rfl fun other => ?_
  simp only [addMonitor, Array.getElem?_push, size_bare, getElem?_bare]
  by_cases here : first + other = board.monitors.size
  · rw [if_pos here, if_pos (by omega)]
    rfl
  · rw [if_neg here, if_neg (by omega)]

theorem le_size_addMonitor (size : first ≤ board.monitors.size) (description : String)
    (skippable : Bool) : first ≤ (board.addMonitor description skippable).monitors.size := by
  rw [addMonitor, Array.size_push]
  exact Nat.le_succ_of_le size

mutual

theorem bare_addCommand : (command : Command α) → {board : Board} →
    first ≤ board.monitors.size →
      (board.addCommand command).bare first = (board.bare first).addCommand command
  | .group description children work, board, size => by
      rw [addCommand, addCommand, bare_addCommands children (le_size_addMonitor size _ _),
        bare_addMonitor size]
  | .delay .., board, size | .set .., board, size | .wait .., board, size
  | .loop .., board, size | .comment .., board, size => bare_addMonitor size _ _

/-- Making monitors is the same for what is left. -/
theorem bare_addCommands : (commands : List (Command α)) → {board : Board} →
    first ≤ board.monitors.size →
      (board.addCommands commands).bare first = (board.bare first).addCommands commands
  | [], board, size => rfl
  | command :: rest, board, size => by
      have more : first ≤ (board.addCommand command).monitors.size := by
        obtain ⟨_, added, -⟩ := board.exists_addCommand command
        rw [added, Array.size_append]
        exact Nat.le_trans size (Nat.le_add_right _ _)
      rw [addCommands, addCommands, bare_addCommands rest more, bare_addCommand command size]

end

end Board

/-! ## What is left of the tasks of commands -/

/-- Numbered commands with their numbers counted from another one. -/
theorem Board.map_numbered {first id : Nat} (beyond : first ≤ id) (commands : List (Command α)) :
    (Board.numbered id commands).map (fun pair => (pair.1 - first, pair.2)) =
      Board.numbered (id - first) commands := by
  induction commands generalizing id with
  | nil => rfl
  | cons command rest ih =>
      rw [numbered, numbered, List.map_cons, ih (Nat.le_trans beyond (Nat.le_add_right id _)),
        Nat.sub_add_comm beyond]

namespace Worker

variable (first id : Nat)

theorem map_bare_writeTasks (channel : String) (completion : Completion α) (value : α) :
    (writeTasks id channel completion value).map (Task.bare first) =
      writeTasks (id - first) channel completion value := by
  unfold writeTasks
  split <;> rfl

theorem map_bare_purposeTasks (value : α) (purpose : Purpose α) :
    (purposeTasks id value purpose).map (Task.bare first) =
      purposeTasks (id - first) value purpose := by
  cases purpose with
  | assign => exact map_bare_writeTasks first id _ _ _
  | await =>
      simp only [purposeTasks]
      split <;> rfl

theorem map_bare_nestedTasks (commands : List (Nat × Command α)) :
    (nestedTasks commands).map (Task.bare first) =
      nestedTasks (commands.map fun pair => (pair.1 - first, pair.2)) := by
  induction commands with
  | nil => rfl
  | cons pair rest ih =>
      obtain ⟨id, command⟩ := pair
      rw [nestedTasks_cons, List.map_cons, List.map_cons, ih, List.map_cons, nestedTasks_cons]
      rfl

variable {first id}

theorem map_bare_commandTasks (beyond : first ≤ id) (command : Command α) :
    (commandTasks id command).map (Task.bare first) = commandTasks (id - first) command := by
  cases command with
  | group _ children _ =>
      rw [commandTasks, commandTasks, map_bare_nestedTasks,
        Board.map_numbered (Nat.le_add_right_of_le beyond), Nat.sub_add_comm beyond]
  | _ => rfl

variable (first id)

theorem map_bare_iterationTasks [Scalar α] (sweep : Sweep α) (body : List (Command α))
    (iteration : Nat) :
    (iterationTasks id sweep body iteration).map (Task.bare first) =
      iterationTasks (id - first) sweep body iteration := by
  rw [iterationTasks, iterationTasks, List.map_append, List.map_append, map_bare_writeTasks]
  rfl

theorem map_bare_stepTasks (step : Nat) (remaining : List (Nat × Command α)) :
    (stepTasks step remaining).map (Task.bare first) =
      stepTasks step (remaining.map fun pair => (pair.1 - first, pair.2)) := by
  cases remaining <;> rfl

/-- Unwinding drops the same of what is left. -/
theorem map_bare_unwind (agenda : List (Task α)) :
    (unwind agenda).map (Task.bare first) = unwind (agenda.map (Task.bare first)) := by
  induction agenda with
  | nil => rfl
  | cons task rest ih =>
      cases cleans : task.cleansUp with
      | true => simp [cleans]
      | false => simp [cleans, ih]

end Worker

/-! ## Steps of what is left -/

section Steps

variable [Scalar α] {board after : Board} {worker next : Worker α} {task : Task α}
variable {rest more : List (Task α)} {reply : Option (Reply α)} {error : ScanError} {first : Nat}

/-- What succeeds also succeeds apart from numbers and times, and comes to the same. -/
theorem Task.bare_of_spawns (spawns : task.Spawns board worker reply after more)
    (untimed : task.IsUntimedFrom first) (size : first ≤ board.monitors.size)
    (uncut : ∀ id, first ≤ id → (board.monitor id).isCutShort = false)
    (moves : Deed.isIdle ⟨task, reply⟩ = false) :
    ∃ plainAfter plainMore,
      (task.bare first).Spawns (board.bare first) (worker.bare first) (reply.map Reply.bare)
        plainAfter plainMore ∧
      plainAfter.bare 0 = after.bare first ∧
      plainMore.map (Task.bare 0) = more.map (Task.bare first) := by
  have same := board.bare_bare first
  cases spawns with
  | safePoint => exact ⟨_, _, .safePoint rfl rfl, same, rfl⟩
  | start id command fresh =>
      have free : ((board.bare first).monitor (id - first)).status.canAdvance .running = true := by
        rw [Board.monitor_bare untimed.1]
        exact fresh
      exact ⟨_, _, .start _ command free, Board.bare_update_status untimed.1 _, rfl⟩
  | settleLeaf id command sound leaf =>
      exact ⟨_, _, .settleLeaf _ command sound leaf, Board.bare_update_status untimed _, rfl⟩
  | settle id command silent =>
      exact ⟨_, _, .settle _ command silent, Board.bare_update_status untimed _, rfl⟩
  | enter id command =>
      refine ⟨_, _, .enter _ command, same, ?_⟩
      rw [List.map_append, List.map_append, Worker.map_bare_commandTasks (Nat.zero_le _),
        Worker.map_bare_commandTasks untimed.1]
      rfl
  | literal id value purpose =>
      refine ⟨_, _, .literal _ value purpose, same, ?_⟩
      rw [Worker.map_bare_purposeTasks, Worker.map_bare_purposeTasks, Nat.sub_zero]
  | evaluated id text purpose value =>
      refine ⟨_, _, .evaluated _ text purpose value, same, ?_⟩
      rw [Worker.map_bare_purposeTasks, Worker.map_bare_purposeTasks, Nat.sub_zero]
  | installLatch =>
      exact ⟨_, _, .installLatch _, Board.bare_update_waits (fun _ => rfl) fun _ => rfl, rfl⟩
  | stampStart =>
      exact ⟨_, _, .stampStart _ 0, Board.bare_update_waits (fun _ => rfl) fun _ => rfl, rfl⟩
  | clearStart =>
      exact ⟨_, _, .clearStart _, Board.bare_update_waits (fun _ => rfl) fun _ => rfl, rfl⟩
  | removeLatch =>
      exact ⟨_, _, .removeLatch _, Board.bare_update_waits (fun _ => rfl) fun _ => rfl, rfl⟩
  | heedAbort | delayGoesOn => exact absurd moves.symm Bool.false_ne_true
  | deadlinePassed => exact ⟨_, _, .deadlinePassed 0 0 0 (Nat.le_refl 0), same, rfl⟩
  | deadlineAhead id deadline now ahead => simp [Deed.isIdle, Deed.isEarly, ahead] at moves
  | delayCut id _ _ cut => simp [uncut id untimed] at cut
  | satisfied poll since value holds => exact ⟨_, _, .satisfied _ 0 value holds, same, rfl⟩
  | limited poll _ _ _ _ bounded => simp [untimed.2] at bounded
  | unlimited poll since value fails unbounded =>
      exact ⟨_, _, .unlimited _ 0 value fails unbounded, same, rfl⟩
  | withinLimit => exact untimed.elim
  | pollCut poll _ cut => simp [uncut poll.id untimed.1] at cut
  | pollGoesOn poll since =>
      have goesOn : ((board.bare first).monitor (poll.id - first)).isCutShort = false := by
        rw [Board.monitor_bare untimed.1]
        rfl
      exact ⟨_, _, .pollGoesOn _ 0 goesOn, same, rfl⟩
  | round id sweep body iteration more =>
      refine ⟨_, _, .round _ sweep body iteration more, same, ?_⟩
      rw [Worker.map_bare_iterationTasks, Worker.map_bare_iterationTasks, Nat.sub_zero]
  | roundsOver id sweep body iteration ended =>
      exact ⟨_, _, .roundsOver _ sweep body iteration ended, same, rfl⟩
  | nest body =>
      refine ⟨_, _, .nest body, ?_, ?_⟩
      · rw [Board.bare_addCommands body size, Board.bare_addCommands body (Nat.zero_le _), same]
      · rw [Worker.map_bare_nestedTasks, Worker.map_bare_nestedTasks, Board.map_numbered size,
          Board.map_numbered (Nat.zero_le _), Board.size_bare, Nat.sub_zero]
  | prepare steps =>
      refine ⟨_, _, .prepare steps, ?_, ?_⟩
      · rw [Board.bare_addCommands steps size, Board.bare_addCommands steps (Nat.zero_le _), same]
      · simp [bare, Board.map_numbered size]
  | steps step remaining =>
      refine ⟨_, _, .steps step _, same, ?_⟩
      rw [Worker.map_bare_stepTasks, Worker.map_bare_stepTasks, List.map_map]
      rfl
  | baseline id condition desired initial =>
      exact ⟨_, _, .baseline _ condition desired initial, same, rfl⟩
  | report now => exact ⟨_, _, .report 0, same, rfl⟩
  | openStep => exact ⟨_, _, .openStep _, same, rfl⟩
  | announceStart => exact ⟨_, _, .announceStart _ _ _, same, rfl⟩
  | write => exact ⟨_, _, .write _ _, same, rfl⟩
  | armDelay => exact ⟨_, _, .armDelay _ _ 0, same, rfl⟩
  | armPoll => exact ⟨_, _, .armPoll _ 0, same, rfl⟩
  | countUnit =>
      refine ⟨_, _, .countUnit _ _, ?_, rfl⟩
      exact congrArg (fun plain : Board => { plain with work := board.work.add 1 }) same
  | announceWork => exact ⟨_, _, .announceWork _, same, rfl⟩
  | leave => exact ⟨_, _, .leave, same, rfl⟩
  | announceFinish => exact ⟨_, _, .announceFinish _ _, same, rfl⟩
  | closeStep => exact ⟨_, _, .closeStep _ _, same, rfl⟩
  | stampRun => exact ⟨_, _, .stampRun 0, same, rfl⟩
  | clearStep => exact ⟨_, _, .clearStep, same, rfl⟩
  | clearActive => exact ⟨_, _, .clearActive, same, rfl⟩
  | setState => exact ⟨_, _, .setState _, same, rfl⟩
  | announce => exact ⟨_, _, .announce _, same, by simp⟩

omit [Scalar α] in
/-- What fails also fails apart from numbers and times. -/
theorem Task.bare_of_fails (fails : task.Fails board reply error)
    (untimed : task.IsUntimedFrom first) (free : board.control.aborted = false) :
    (task.bare first).Fails (board.bare first) (reply.map Reply.bare) error := by
  cases fails with
  | safePoint aborted | heedAbort _ _ aborted => simp [free] at aborted
  | refused id command used =>
      have like : (board.bare first).monitor (id - first) = (board.monitor id).bare :=
        Board.monitor_bare untimed.1
      have refused : (Task.start (id - first) command).Fails (board.bare first) none
          (Worker.refusal ((board.bare first).monitor (id - first))) :=
        .refused _ command (by rw [like]; exact used)
      rwa [like] at refused
  | evaluated id text purpose error => exact .evaluated _ text purpose error
  | baseline id condition desired error => exact .baseline _ condition desired error
  | write channel value error => exact .write channel value error
  | probe poll since error => exact .probe _ 0 error
  | timeout => exact untimed.elim

namespace Worker

omit [Scalar α]

@[simp] theorem bare_bare (worker : Worker α) (first : Nat) :
    (worker.bare first).bare 0 = worker.bare first := by
  simp [bare, Function.comp_def]

theorem bare_proceed (worker : Worker α) (more : List (Task α)) :
    (worker.proceed more).bare first = (worker.bare first).proceed (more.map (Task.bare first)) := by
  unfold proceed bare
  cases worker.failure <;> simp [map_bare_unwind, List.map_tail]

theorem bare_fail (worker : Worker α) (error : ScanError) :
    (worker.fail error).bare first = (worker.bare first).fail error := by
  unfold fail bare
  simp [map_bare_unwind, List.map_tail]

theorem bare_closing (worker : Worker α) (step : Nat) (description : String) :
    (worker.closing step description).bare first =
      (worker.bare first).closing step description := by
  cases failed : worker.failure <;> simp [closing, bare, failed]

/-- What is noted apart from names and times is the same. -/
theorem bare_noting (worker : Worker α) (board : Board) (task : Task α)
    (reply : Option (Reply α)) :
    ((worker.bare first).noting (board.bare first) (task.bare first)
        (reply.map Reply.bare)).bare 0 = (worker.noting board task reply).bare first := by
  have same := worker.bare_bare first
  cases task with
  | closeStep step description =>
      change ((worker.bare first).closing step description).bare 0 =
        (worker.closing step description).bare first
      rw [bare_closing, bare_closing, same]
  | stampRun =>
      rcases reply with _ | _ | _ | _ | now | _ <;> exact same
  | report =>
      rcases reply with _ | _ | _ | _ | now | _ <;> try exact same
      exact congrArg (fun plain : Worker α =>
        { plain with report := some (worker.reportAt board now).bare }) same
  | _ => exact same

end Worker

/-- A step that is no waiting for the end of a delay is a step of what is left. -/
theorem Worker.exists_bare_step? (agenda : worker.agenda = task :: rest)
    (stepped : worker.step? board reply = some (after, next))
    (untimed : task.IsUntimedFrom first) (size : first ≤ board.monitors.size)
    (uncut : ∀ id, first ≤ id → (board.monitor id).isCutShort = false)
    (free : board.control.aborted = false) (moves : Deed.isIdle ⟨task, reply⟩ = false) :
    ∃ plainAfter plainNext,
      (worker.bare first).step? (board.bare first) (reply.map Reply.bare) =
        some (plainAfter, plainNext) ∧
      plainAfter.bare 0 = after.bare first ∧ plainNext.bare 0 = next.bare first := by
  have head : (worker.bare first).agenda = task.bare first :: rest.map (Task.bare first) :=
    congrArg (List.map (Task.bare first)) agenda
  obtain ⟨_, _, same, result⟩ := step?_cases stepped
  obtain ⟨rfl, rfl⟩ := List.cons.inj (agenda.symm.trans same)
  rcases result with ⟨more, spawns, rfl⟩ | ⟨error, fails, rfl, rfl⟩
  · obtain ⟨plainAfter, plainMore, plain, boards, tasks⟩ :=
      Task.bare_of_spawns spawns untimed size uncut moves
    refine ⟨plainAfter, _, step?_of_spawns head plain, boards, ?_⟩
    rw [bare_proceed, bare_proceed, bare_noting, tasks]
  · refine ⟨_, _, step?_of_fails head (Task.bare_of_fails fails untimed free),
      after.bare_bare first, ?_⟩
    rw [bare_fail, bare_fail, bare_bare]

/-- Waiting for the end of a delay leaves everything as it is. -/
theorem Worker.Outcome.bare_of_isIdle (agenda : worker.agenda = task :: rest)
    (outcome : Outcome board worker task rest reply after next)
    (untimed : task.IsUntimedFrom first)
    (uncut : ∀ id, first ≤ id → (board.monitor id).isCutShort = false)
    (free : board.control.aborted = false) (idle : Deed.isIdle ⟨task, reply⟩ = true) :
    after.bare first = board.bare first ∧ next.bare first = worker.bare first := by
  have alike : ∀ {look other : Task α}, worker.agenda = look :: rest →
      other.bare first = look.bare first →
        (worker.withAgenda (other :: rest)).bare first = worker.bare first := by
    intro look other agenda same
    simp [bare, withAgenda, agenda, same]
  cases outcome with
  | sound sound spawns =>
      cases spawns with
      | heedAbort | delayGoesOn | deadlineAhead => exact ⟨rfl, alike agenda rfl⟩
      | delayCut id _ _ cut => simp [uncut id untimed] at cut
      | deadlinePassed id deadline now passed => simp [Deed.isIdle, Deed.isEarly, passed] at idle
      | _ => exact absurd idle Bool.false_ne_true
  | broken sound fails =>
      cases fails with
      | heedAbort _ _ aborted => simp [free] at aborted
      | _ => exact absurd idle Bool.false_ne_true
  | cleaning failed cleans spawns =>
      cases task <;> first
        | exact absurd cleans Bool.false_ne_true
        | exact absurd idle Bool.false_ne_true

end Steps

end Scan
