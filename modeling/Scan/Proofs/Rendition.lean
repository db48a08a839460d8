import Scan.Proofs.Accounts
import Scan.Proofs.Numbering
import Scan.Proofs.Score

/-!
# Runs as renditions of a score

A worker that nobody controls plays a score. Every task stands for some beats: those of its own
call, or those of the tasks that it leads to. A step of the worker either is noticed, and then the
score goes on by it, or it leaves the score as it is.
-/

namespace Scan

variable {α : Type}

/-! ## What is noticed of a task -/

/-- A query without the number of the monitor that a rest watches. -/
def Query.anonymous : Query α → Query α
  | .rest _ limit => .rest 0 limit
  | query => query

namespace Task

/-- The call that a task makes, if it makes one. -/
def query? (pollInterval : Duration) : Task α → Option (Query α)
  | .resolve _ (.expression text) _ => some (.evaluate text)
  | .baseline _ condition _ => some (.read condition.channel)
  | .write channel value => some (.write channel value)
  | .probe poll _ => some (.read poll.channel)
  | .restUntil _ _ limit => some (.rest 0 limit)
  | .restPoll .. => some (.rest 0 pollInterval)
  | .stampStart _ | .armDelay .. | .checkDeadline .. | .armPoll _ | .checkLimit .. | .stampRun
  | .report => some .clock
  | _ => none

/-- Whether a task is noticed: it is a call or it counts a unit of work. -/
def isNoticed : Task α → Bool
  | .resolve _ (.expression _) _ | .baseline .. | .write .. | .probe .. | .restUntil ..
  | .restPoll .. | .stampStart _ | .armDelay .. | .checkDeadline .. | .armPoll _ | .checkLimit ..
  | .stampRun | .report | .countUnit .. => true
  | _ => false

end Task

/-- What is noticed of a deed. -/
def Deed.notice? (pollInterval : Duration) (deed : Deed α) : Option (Notice α) :=
  if deed.task.isNoticed then some (.of (deed.task.query? pollInterval) deed.reply) else none

/-- What is noticed of some deeds. -/
def noticed (pollInterval : Duration) (past : List (Deed α)) : List (Notice α) :=
  past.filterMap (·.notice? pollInterval)

@[simp] theorem noticed_append (pollInterval : Duration) (first second : List (Deed α)) :
    noticed pollInterval (first ++ second) =
      noticed pollInterval first ++ noticed pollInterval second :=
  List.filterMap_append

theorem noticed_of_isNoticed {pollInterval : Duration} {deed : Deed α}
    (heard : deed.task.isNoticed = true) :
    noticed pollInterval [deed] = [.of (deed.task.query? pollInterval) deed.reply] := by
  simp [noticed, Deed.notice?, heard]

theorem noticed_of_not_isNoticed {pollInterval : Duration} {deed : Deed α}
    (silent : deed.task.isNoticed = false) : noticed pollInterval [deed] = [] := by
  simp [noticed, Deed.notice?, silent]

/-- What a worker asks next is the call of its next task. -/
theorem Worker.query?_of_next [Scalar α] {board : Board} {worker : Worker α} {query : Query α}
    {resume : query.Answer → Board → Board × Worker α}
    (asks : worker.next board = .call query resume) :
    ∃ task rest, worker.agenda = task :: rest ∧
      task.query? worker.pollInterval = some query.anonymous := by
  cases agenda : worker.agenda with
  | nil => simp [next, agenda] at asks
  | cons task rest =>
      refine ⟨task, rest, rfl, ?_⟩
      cases task
      case resolve id quantity purpose =>
        cases quantity <;> simp only [next, agenda] at asks <;> cases asks
        rfl
      all_goals
        simp only [next, agenda] at asks
        (repeat' split at asks) <;> first
          | cases asks
            rfl
          | cases asks

/-! ## The beats of a task -/

namespace Task

variable [Scalar α]

/-- The beats that a task leads to, as far as they are settled. -/
def beats : Task α → List (Beat α)
  | .announceStart _ _ command | .start _ command | .enter _ command => Beat.ofUnits command.expand
  | .resolve _ quantity purpose => Beat.ofQuantity purpose quantity
  | .baseline _ condition desired => [.baseline condition desired]
  | .write channel value => [.write channel value]
  | .stampStart _ | .stampRun => [.stamp]
  | .armDelay _ duration => [.armDelay duration]
  | .heedAbort _ deadline | .checkDeadline _ deadline => [.checkDeadline deadline]
  | .restUntil _ deadline limit => [.restUntil deadline limit]
  | .armPoll poll => [.armPoll poll.anonymous]
  | .probe poll since => [.probe poll.anonymous since]
  | .checkLimit poll since limit => [.checkLimit poll.anonymous since limit]
  | .restPoll poll since => [.restPoll poll.anonymous since]
  | .iterate _ sweep body iteration =>
      Beat.ofUnits (sweep.rounds (Command.expandAll body) iteration)
  | .nest body => Beat.ofUnits (Command.expandAll body)
  | .countUnit .. => [.count]
  | .settle _ command => if command.isComposite then [] else [.count]
  | .prepare commands => .stamp :: Beat.ofUnits (Command.expandAll commands)
  | .steps _ remaining => Beat.ofUnits (Command.expandAll (remaining.map Prod.snd))
  | _ => []

end Task

namespace Beat

variable [Scalar α]

@[simp] theorem ofUnits_nil : ofUnits ([] : List (WorkUnit α)) = [] := rfl

@[simp] theorem ofUnits_cons (unit : WorkUnit α) (rest : List (WorkUnit α)) :
    ofUnits (unit :: rest) = ofUnit unit ++ ofUnits rest := rfl

@[simp] theorem ofUnits_append (first second : List (WorkUnit α)) :
    ofUnits (first ++ second) = ofUnits first ++ ofUnits second :=
  List.flatMap_append

end Beat

namespace Worker

variable [Scalar α]

/-- The beats of an agenda. -/
def beats (agenda : List (Task α)) : List (Beat α) :=
  agenda.flatMap Task.beats

@[simp] theorem beats_nil : beats ([] : List (Task α)) = [] := rfl

@[simp] theorem beats_cons (task : Task α) (rest : List (Task α)) :
    beats (task :: rest) = task.beats ++ beats rest := rfl

@[simp] theorem beats_append (first second : List (Task α)) :
    beats (first ++ second) = beats first ++ beats second :=
  List.flatMap_append

@[simp] theorem beats_pollTasks (poll : Poll α) : beats (pollTasks poll) = Beat.ofPoll poll := rfl

@[simp] theorem beats_writeTasks (id : Nat) (channel : String) (completion : Completion α)
    (value : α) :
    beats (writeTasks id channel completion value) = Beat.ofWrite channel completion value := by
  unfold writeTasks Beat.ofWrite
  split <;> rfl

@[simp] theorem beats_awaitTasks (id : Nat) (condition : Condition α) (threshold : α) :
    beats (awaitTasks id condition threshold) = Beat.ofAwait condition threshold := rfl

@[simp] theorem beats_purposeTasks (id : Nat) (value : α) (purpose : Purpose α) :
    beats (purposeTasks id value purpose) = Beat.ofPurpose value purpose := by
  cases purpose with
  | assign assignment => exact beats_writeTasks ..
  | await condition =>
      simp only [purposeTasks, Beat.ofPurpose]
      split <;> rfl

@[simp] theorem beats_nestedTasks (commands : List (Nat × Command α)) :
    beats (nestedTasks commands) =
      Beat.ofUnits (Command.expandAll (commands.map Prod.snd)) := by
  induction commands with
  | nil => rfl
  | cons pair rest ih =>
      obtain ⟨id, command⟩ := pair
      rw [nestedTasks_cons, beats_cons, beats_cons, ih, List.map_cons, Command.expandAll,
        Beat.ofUnits_append]
      rfl

/-- A step comes to the beats of its units of work. -/
theorem beats_commandTasks (id : Nat) (command : Command α) :
    beats (commandTasks id command ++ [Task.settle id command, .leave]) =
      Beat.ofUnits command.expand := by
  cases command with
  | group _ children _ =>
      rw [commandTasks, beats_append, beats_nestedTasks, Board.map_snd_numbered, Command.expand]
      exact List.append_nil _
  | loop _ sweep body _ => exact List.append_nil _
  | delay | comment => rfl
  | set | wait =>
      simp [commandTasks, Task.beats, Command.expand, Command.isComposite, Beat.ofUnit, Beat.ofLeaf]

theorem beats_iterationTasks (id : Nat) (sweep : Sweep α) (body : List (Command α))
    {iteration : Nat} (more : iteration < sweep.iterations) :
    beats (iterationTasks id sweep body iteration) =
      Beat.ofUnits (sweep.rounds (Command.expandAll body) iteration) := by
  rw [sweep.rounds_of_lt _ more, iterationTasks]
  simp [Task.beats, Beat.ofUnit]

theorem beats_stepTasks (step : Nat) (remaining : List (Nat × Command α)) :
    beats (stepTasks step remaining) =
      Beat.ofUnits (Command.expandAll (remaining.map Prod.snd)) := by
  cases remaining with
  | nil => rfl
  | cons pair rest => simp [stepTasks, Task.beats, Command.expandAll]

end Worker

/-! ## Boards that nobody disturbs -/

/-- A monitor that nobody has asked to skip anything. -/
structure Monitor.IsUnskipped (monitor : Monitor) : Prop where
  pending : monitor.skipPending = false
  latched : ∀ latch, monitor.isReleased latch = false

namespace Monitor.IsUnskipped

variable {monitor : Monitor}

theorem of_isNew (new : monitor.IsNew) : monitor.IsUnskipped := by
  obtain ⟨description, skippable, rfl⟩ := new
  constructor
  · rfl
  · intro latch
    simp [isReleased]

theorem isCutShort (unskipped : monitor.IsUnskipped) : monitor.isCutShort = false := by
  unfold Monitor.isCutShort
  split
  · exact unskipped.latched _
  · rfl

theorem advance (unskipped : monitor.IsUnskipped) (status : StepStatus) :
    (monitor.advance status).IsUnskipped := by
  unfold Monitor.advance
  split
  · exact ⟨unskipped.pending, unskipped.latched⟩
  · exact unskipped

theorem installLatch (unskipped : monitor.IsUnskipped) : monitor.installLatch.IsUnskipped := by
  constructor
  · rfl
  · intro latch
    have before := unskipped.latched latch
    simp only [isReleased, Array.getD_eq_getD_getElem?, Monitor.installLatch,
      Array.getElem?_push] at before ⊢
    split
    · exact unskipped.pending
    · exact before

end Monitor.IsUnskipped

/-- A board on which nobody has asked for anything. -/
structure Board.IsUndisturbed (board : Board) : Prop where
  control : board.control = {}
  unskipped : ∀ id, (board.monitor id).IsUnskipped

/-- Whether nobody has asked to skip anything among the monitors from a number on. -/
def Board.UnskippedFrom (first : Nat) (board : Board) : Prop :=
  ∀ id, first ≤ id → (board.monitor id).IsUnskipped

/-- What those may do to the board who do not control the run: events are taken, and dry runs come
and go. -/
structure Board.Bystander (board after : Board) : Prop where
  run : after.run = board.run
  control : after.control = board.control
  work : after.work = board.work
  monitors : after.monitors = board.monitors

theorem Board.Bystander.foreign {board after : Board} (bystander : board.Bystander after) :
    board.Foreign after where
  run := .inl bystander.run
  aborted := by
    rw [bystander.control]
    exact id
  work := bystander.work
  size := congrArg Array.size bystander.monitors
  status := fun id => by rw [monitor, monitor, bystander.monitors]

namespace Board.UnskippedFrom

variable {board : Board} {first : Nat}

theorem update (unskipped : board.UnskippedFrom first) (id : Nat) {change : Monitor → Monitor}
    (kept : ∀ monitor, Monitor.IsUnskipped monitor → (change monitor).IsUnskipped) :
    (board.update id change).UnskippedFrom first :=
  fun other beyond => board.monitor_update_of id _ kept (unskipped other beyond)

theorem addCommands (unskipped : board.UnskippedFrom first) (commands : List (Command α)) :
    (board.addCommands commands).UnskippedFrom first := by
  intro id above
  rcases Nat.lt_or_ge id board.monitors.size with old | beyond
  · rw [board.monitor_addCommands_of_lt commands old]
    exact unskipped id above
  · apply Monitor.IsUnskipped.of_isNew
    rcases Nat.lt_or_ge id (board.addCommands commands).monitors.size with new | none
    · rw [board.size_addCommands commands] at new
      exact board.isNew_addCommands_of_ge commands beyond new
    · exact (board.addCommands commands).isNew_monitor_of_ge none

end Board.UnskippedFrom

section Steps

variable [Scalar α] {board after : Board} {worker next : Worker α} {task : Task α}
variable {rest more : List (Task α)} {reply : Option (Reply α)} {error : ScanError}

/-- A task that is not noticed leaves its beats to the tasks in its place. -/
theorem Task.beats_of_spawns (spawns : task.Spawns board worker reply after more)
    (sound : worker.failure = none) (silent : task.isNoticed = false) :
    Worker.beats more = task.beats := by
  cases spawns with
  | enter id command => exact Worker.beats_commandTasks id command
  | literal id value purpose => exact Worker.beats_purposeTasks id value purpose
  | round id sweep body iteration more => exact Worker.beats_iterationTasks id sweep body more
  | roundsOver id sweep body iteration ended =>
      rw [Task.beats, sweep.rounds_of_le _ (Nat.le_of_not_lt ended)]
      rfl
  | nest body => rw [Worker.beats_nestedTasks, Board.map_snd_numbered, Task.beats]
  | prepare steps => simp [Task.beats]
  | steps step remaining => exact Worker.beats_stepTasks step remaining
  | settle id command composite =>
      have composite : command.isComposite = true := by simpa [sound] using composite
      simp [Task.beats, composite]
  | settleLeaf id command _ leaf => simp [Task.beats, leaf]
  | _ => first
    | exact absurd silent.symm Bool.false_ne_true
    | simp [Task.beats]

/-- The worker asks to skip nothing. -/
theorem Task.unskippedFrom_of_spawns {first : Nat}
    (spawns : task.Spawns board worker reply after more)
    (unskipped : board.UnskippedFrom first) : after.UnskippedFrom first := by
  cases spawns with
  | start | settle | settleLeaf => exact unskipped.update _ fun _ before => before.advance _
  | installLatch => exact unskipped.update _ fun _ before => before.installLatch
  | stampStart | clearStart | removeLatch =>
      exact unskipped.update _ fun _ before => ⟨before.pending, before.latched⟩
  | nest | prepare => exact unskipped.addCommands _
  | _ => exact unskipped

/-- The worker does not disturb the board. -/
theorem Task.isUndisturbed_of_spawns (spawns : task.Spawns board worker reply after more)
    (undisturbed : board.IsUndisturbed) : after.IsUndisturbed where
  control := (Task.control_of_spawns spawns).trans undisturbed.control
  unskipped := fun id =>
    Task.unskippedFrom_of_spawns spawns (fun id _ => undisturbed.unskipped id) id (Nat.zero_le id)

/-- A task that is noticed stands for one beat, which is answered as the task is. -/
theorem Task.answer_of_spawns (spawns : task.Spawns board worker reply after more)
    (undisturbed : board.IsUndisturbed) (heard : task.isNoticed = true)
    (ordinary : task ≠ .report) :
    ∃ beat, task.beats = [beat] ∧
      beat.query? worker.pollInterval = task.query? worker.pollInterval ∧
      beat.answer worker.pollInterval reply = some (.ok (Worker.beats more)) := by
  cases spawns with
  | evaluated id text purpose value =>
      refine ⟨_, rfl, rfl, ?_⟩
      rw [Worker.beats_purposeTasks]
      rfl
  | deadlinePassed id deadline now passed | deadlineAhead id deadline now passed =>
      refine ⟨_, rfl, rfl, ?_⟩
      simp [Beat.answer, passed, beats]
  | delayCut id _ _ cut =>
      simp [(undisturbed.unskipped id).isCutShort] at cut
  | pollCut poll _ cut =>
      simp [(undisturbed.unskipped poll.id).isCutShort] at cut
  | satisfied poll since value holds =>
      refine ⟨_, rfl, rfl, ?_⟩
      have same : poll.anonymous.isSatisfied value = true := holds
      simp [Beat.answer, Beat.ofReading, same]
  | limited poll since value limit fails bounded | unlimited poll since value fails bounded =>
      refine ⟨_, rfl, rfl, ?_⟩
      have same : poll.anonymous.isSatisfied value = false := fails
      have limited : poll.anonymous.limit = poll.limit := rfl
      simp [Beat.answer, Beat.ofReading, same, limited, bounded, beats]
  | withinLimit poll since limit now within =>
      refine ⟨_, rfl, rfl, ?_⟩
      simp [Beat.answer, within, beats]
  | report => exact absurd rfl ordinary
  | _ => first
    | exact absurd heard Bool.false_ne_true
    | exact ⟨_, rfl, rfl, rfl⟩

omit [Scalar α] in
/-- A task that nobody controls fails only if it is noticed. -/
theorem Task.isNoticed_of_fails (fails : task.Fails board reply error)
    (undisturbed : board.IsUndisturbed) (numbered : worker.IsNumbered board)
    (agenda : worker.agenda = task :: rest) : task.isNoticed = true := by
  cases fails with
  | safePoint aborted | heedAbort _ _ aborted => simp [undisturbed.control] at aborted
  | refused id command used => simp [numbered.canAdvance agenda] at used
  | _ => rfl

/-- The beat of a task that fails is answered with the same error. -/
theorem Task.answer_of_fails (fails : task.Fails board reply error) (heard : task.isNoticed = true)
    (pollInterval : Duration) :
    ∃ beat, task.beats = [beat] ∧ beat.query? pollInterval = task.query? pollInterval ∧
      beat.answer pollInterval reply = some (.error error) := by
  cases fails with
  | timeout poll since limit now expired =>
      refine ⟨_, rfl, rfl, ?_⟩
      simp [Beat.answer, expired, Poll.anonymous]
  | _ => first
    | exact absurd heard Bool.false_ne_true
    | exact ⟨_, rfl, rfl, rfl⟩

end Steps

/-! ## The score of a worker -/

/-- What a worker is still to play. -/
def Worker.score [Scalar α] (worker : Worker α) : Score α :=
  if worker.report.isSome then .closed worker.failure
  else
    match worker.failure with
    | some error => .broken error
    | none => .playing (beats worker.agenda)

namespace Worker

variable [Scalar α] {board after : Board} {worker next : Worker α} {task : Task α}
variable {rest more : List (Task α)} {reply : Option (Reply α)}

theorem score_of_report {report : RunReport} (reported : worker.report = some report) :
    worker.score = .closed worker.failure := by
  simp [score, reported]

theorem score_of_broken {error : ScanError} (unreported : worker.report = none)
    (failed : worker.failure = some error) : worker.score = .broken error := by
  simp [score, unreported, failed]

theorem score_of_sound (unreported : worker.report = none) (sound : worker.failure = none) :
    worker.score = .playing (beats worker.agenda) := by
  simp [score, unreported, sound]

/-- What comes of a task for the score: it is not noticed and the score stays as it is, or the score
goes on by it. -/
def Renders (worker : Worker α) (task : Task α) (reply : Option (Reply α)) (next : Worker α) :
    Prop :=
  if task.isNoticed then
    worker.score.step? worker.pollInterval reply =
      some (.of (task.query? worker.pollInterval) reply, next.score)
  else next.score = worker.score

/-- The report closes the score. -/
theorem Outcome.renders_report (outcome : Outcome board worker .report rest reply after next)
    (agenda : worker.agenda = [.report]) (unreported : worker.report = none) :
    worker.Renders .report reply next := by
  cases outcome with
  | sound sound spawns =>
      cases spawns with
      | report now =>
          rw [Renders, score_of_sound unreported sound, agenda]
          simp [Task.isNoticed, Task.query?, Notice.of, Score.step?, Task.beats, score, noting,
            sound]
  | broken _ fails => cases fails
  | cleaning failed _ spawns =>
      cases spawns with
      | report now =>
          obtain ⟨error, failed⟩ := Option.isSome_iff_exists.mp failed
          rw [Renders, score_of_broken unreported failed]
          simp [Task.isNoticed, Task.query?, Notice.of, Score.step?, score, noting, failed]

/-- A step of a worker that has not yet reported renders its score. -/
theorem Outcome.renders_of_inner (agenda : worker.agenda = task :: rest)
    (outcome : Outcome board worker task rest reply after next) (inner : task.isInner = true)
    (unreported : worker.report = none) (undisturbed : board.IsUndisturbed)
    (numbered : worker.IsNumbered board) : worker.Renders task reply next := by
  have ordinary : task ≠ .report := by
    rintro rfl
    exact Bool.false_ne_true inner
  have kept : ∀ agenda, ((worker.noting board task reply).withAgenda agenda).report = none :=
    fun _ => (report_noting_of_isInner inner).trans unreported
  unfold Renders
  cases outcome with
  | @sound _ more sound spawns =>
      rw [score_of_sound unreported sound, agenda, beats_cons]
      split
      · rename_i heard
        obtain ⟨beat, own, query, answer⟩ :=
          Task.answer_of_spawns spawns undisturbed heard ordinary
        rw [own, List.singleton_append, score_of_sound (kept _) (by simp [sound])]
        simp [Score.step?, answer, query]
      · rename_i silent
        have own := Task.beats_of_spawns spawns sound (Bool.not_eq_true _ ▸ silent)
        rw [score_of_sound (kept _) (by simp [sound]), ← own]
        simp
  | @broken error sound fails =>
      have heard := Task.isNoticed_of_fails fails undisturbed numbered agenda
      obtain ⟨beat, own, query, answer⟩ := Task.answer_of_fails fails heard worker.pollInterval
      rw [if_pos heard, score_of_sound unreported sound, agenda, beats_cons, own,
        List.singleton_append]
      simp [Score.step?, answer, query, score, unreported]
  | cleaning failed cleans spawns =>
      obtain ⟨error, failed⟩ := Option.isSome_iff_exists.mp failed
      have silent : task.isNoticed = false := by
        cases task <;> first
          | rfl
          | exact absurd cleans Bool.false_ne_true
          | exact absurd rfl ordinary
      have goesOn : ∀ agenda,
          ((worker.noting board task reply).withAgenda agenda).failure = some error := by
        simp [failed]
      rw [silent, if_neg Bool.false_ne_true, score_of_broken unreported failed,
        score_of_broken (kept _) (goesOn _)]

/-- What a worker does after its report is not noticed. -/
theorem Outcome.renders_of_reported {report : RunReport}
    (outcome : Outcome board worker task rest reply after next)
    (reported : worker.report = some report)
    (ending : (∃ state, task = .setState state) ∨ ∃ event, task = .announce event) :
    worker.Renders task reply next := by
  have kept : next.report = some report ∧ next.failure = worker.failure := by
    rcases ending with ⟨_, rfl⟩ | ⟨_, rfl⟩
    all_goals
      cases outcome with
      | sound _ spawns | cleaning _ _ spawns =>
          cases spawns
          exact ⟨reported, rfl⟩
      | broken _ fails => cases fails
  have silent : task.isNoticed = false := by rcases ending with ⟨_, rfl⟩ | ⟨_, rfl⟩ <;> rfl
  rw [Renders, silent, if_neg Bool.false_ne_true, score_of_report reported, score_of_report kept.1,
    kept.2]

/-- Every step of a worker that nobody controls renders its score. -/
theorem Outcome.renders (agenda : worker.agenda = task :: rest)
    (outcome : Outcome board worker task rest reply after next) (stage : Stage board worker)
    (undisturbed : board.IsUndisturbed) (numbered : worker.IsNumbered board) :
    worker.Renders task reply next := by
  cases stage with
  | working front work inner unreported =>
      cases front with
      | nil =>
          obtain ⟨rfl, rfl⟩ := List.cons.inj (agenda.symm.trans work)
          exact outcome.renders_report agenda unreported
      | cons first front =>
          obtain ⟨rfl, -⟩ := List.cons.inj (agenda.symm.trans work)
          exact outcome.renders_of_inner agenda (inner _ List.mem_cons_self) unreported undisturbed
            numbered
  | reporting report work reports =>
      obtain ⟨rfl, rfl⟩ := List.cons.inj (agenda.symm.trans work)
      exact outcome.renders_of_reported reports.kept (.inl ⟨_, rfl⟩)
  | closed report work reports =>
      obtain ⟨event, rfl⟩ := exists_event_of_suffix work (agenda ▸ List.mem_cons_self)
      exact outcome.renders_of_reported reports.kept (.inr ⟨_, rfl⟩)

end Worker

end Scan
