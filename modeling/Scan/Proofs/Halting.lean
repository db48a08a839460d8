import Scan.Proofs.Backing
import Scan.Proofs.Chronicle
import Scan.Proofs.Verdict

/-!
# Where an error stops a run

An error stops a run at one of its steps. The steps before that one are completed and all their work
is counted, and some of the work of the step may be; all of it can only be counted if the run was
aborted. What the worker still does cleans up and changes none of this, and at its close the step is
noted together with the error.
-/

namespace Scan

variable {α : Type}

/-- A task that fails otherwise than by an abort is a risky errand. -/
theorem Task.isRisky_of_fails {board : Board} {worker : Worker α} {task : Task α}
    {rest : List (Task α)} {reply : Option (Reply α)} {error : ScanError}
    (numbered : worker.IsNumbered board) (agenda : worker.agenda = task :: rest)
    (fails : task.Fails board reply error) (proper : error.isInterrupted = false) :
    task.isRisky = true := by
  cases fails with
  | refused id command used => simp [numbered.canAdvance agenda] at used
  | safePoint | heedAbort => cases proper
  | evaluated | baseline | write | probe | timeout => rfl

/-! ## Steps that are completed -/

namespace Event

/-- The top-level step that an event tells is completed. -/
def completed? : Event → Option Nat
  | .stepFinished step .completed => some step
  | _ => none

variable (total : UInt64) (step count units : Nat) (command : Command α)
variable (finished : List (Command α))

theorem completed_opening : (opening total step count command units).filterMap completed? = [] := by
  rw [List.filterMap_eq_nil_iff]
  intro event member
  rcases List.mem_cons.mp member with rfl | member
  · rfl
  · obtain ⟨performed, -, rfl⟩ := List.mem_map.mp member
    rfl

theorem completed_blocks : (blocks total step count finished).filterMap completed? =
    List.range' step finished.length := by
  induction finished generalizing step count with
  | nil => rfl
  | cons command rest ih =>
      rw [blocks, block, List.filterMap_append, List.filterMap_append, completed_opening, ih,
        List.length_cons, List.range'_succ]
      rfl

/-- The chronicle tells that the steps are completed in order. -/
theorem completed_chronicle : (chronicle total finished).filterMap completed? =
    List.range' 1 finished.length :=
  completed_blocks total 1 0 finished

end Event

/-- A run that is finished has told of all its steps. -/
theorem IsChronicle.eq_of_finished {total : UInt64} {steps : List (Command α)} {events : List Event}
    (whole : IsChronicle total steps .finished events) : events = Event.chronicle total steps := by
  cases whole with
  | finished => rfl
  | within _ _ alike => rcases alike with ⟨-, same⟩ | ⟨-, same⟩ <;> cases same

namespace Worker

/-- How a run that an error has stopped accounts for the step at which it stopped: the close of the
step is still to come, or the step has been noted. -/
inductive Blames (worker : Worker α) (stopped : StoppedStep) : Prop where
  | pending (inner : List (Task α)) {rest : List (Task α)}
      (agenda : worker.agenda = inner ++ .closeStep stopped.step stopped.description :: rest)
      (inside : ∀ task ∈ inner, task.isWithin = true)
      (outside : ∀ task ∈ rest, task.isBetween = true)
  | noted (outside : ∀ task ∈ worker.agenda, task.isBetween = true)
      (kept : worker.stopped = some stopped)

/-- A run that an error has stopped at the command that follows some completed ones. -/
structure Halted (finished : List (Command α)) (command : Command α) (error : ScanError)
    (board : Board) (worker : Worker α) : Prop where
  failed : worker.failure = some error
  completed : worker.completed = finished.length
  atLeast : Command.unitsOf finished ≤ board.work.performed.toNat
  atMost : board.work.performed.toNat ≤ Command.unitsOf finished + command.workUnits.toNat
  short : error.isInterrupted = false →
    board.work.performed.toNat < Command.unitsOf finished + command.workUnits.toNat
  blames : worker.Blames ⟨finished.length + 1, command.description, error.info⟩

theorem isBetween_endTasks : ∀ task ∈ (endTasks : List (Task α)), task.isBetween = true := by
  simp [endTasks, Task.isBetween]

section Steps

variable [Scalar α] {board after : Board} {worker next : Worker α} {task : Task α}
variable {rest more : List (Task α)} {reply : Option (Reply α)} {error : ScanError}
variable {stopped : StoppedStep} {finished steps : List (Command α)} {command : Command α}

/-! ## Cleaning up -/

/-- Cleaning up counts no work and does not change what is completed. -/
theorem noting_of_cleaning (failed : worker.failure = some error) (cleans : task.cleansUp = true)
    (spawns : task.Spawns board worker reply after more) :
    after.work.performed = board.work.performed ∧
      (worker.noting board task reply).completed = worker.completed := by
  have nothing : task.counts = [] := by
    cases task <;> first | rfl | exact absurd cleans Bool.false_ne_true
  constructor
  · rw [Task.performed_of_spawns spawns, nothing]
    exact UInt64.add_zero _
  · cases spawns with
    | closeStep => simp [noting, closing, failed]
    | _ => rfl

/-- When cleaning up comes to the close of the step, the step is noted. -/
theorem Blames.of_cleaning (blames : worker.Blames stopped) (agenda : worker.agenda = task :: rest)
    (failed : worker.failure = some error) (same : stopped.error = error.info)
    (cleans : task.cleansUp = true) (spawns : task.Spawns board worker reply after more) :
    ((worker.noting board task reply).withAgenda (unwind (more ++ rest))).Blames stopped := by
  cases blames with
  | noted outside kept =>
      rw [agenda] at outside
      have own := outside task List.mem_cons_self
      refine .noted (fun next member => ?_) ?_
      · rcases List.mem_append.mp ((unwind_suffix _).mem member) with member | member
        · refine isBetween_of_spawns own ?_ spawns next member
          rintro step remaining rfl
          cases cleans
        · exact outside next (List.mem_cons_of_mem _ member)
      · rw [stopped_withAgenda, stopped_noting, kept]
        rintro step description rfl
        cases own
  | pending inner shape inside outside =>
      rw [agenda] at shape
      cases inner with
      | nil =>
          obtain ⟨rfl, rfl⟩ := List.cons.inj shape
          cases spawns with
          | closeStep =>
              refine .noted (fun next member => outside next ((unwind_suffix _).mem member)) ?_
              simp [noting, closing, failed, ← same]
      | cons first inner =>
          rw [List.cons_append] at shape
          obtain ⟨rfl, rfl⟩ := List.cons.inj shape
          refine .pending (unwind (more ++ inner)) ?_ (fun next member => ?_) outside
          · rw [agenda_withAgenda, ← List.append_assoc, unwind_append_cons rfl]
          · rcases List.mem_append.mp ((unwind_suffix _).mem member) with member | member
            · exact isWithin_of_spawns (inside task List.mem_cons_self) spawns next member
            · exact inside next (List.mem_cons_of_mem _ member)

/-- A run that has stopped at a step has stopped there for good. -/
theorem Halted.of_outcome (halted : Halted finished command error board worker)
    (agenda : worker.agenda = task :: rest)
    (outcome : Outcome board worker task rest reply after next) :
    Halted finished command error after next := by
  cases outcome with
  | sound sound => simp [halted.failed] at sound
  | broken sound => simp [halted.failed] at sound
  | cleaning _ cleans spawns =>
      obtain ⟨work, completed⟩ := noting_of_cleaning halted.failed cleans spawns
      refine ⟨?_, ?_, work ▸ halted.atLeast, work ▸ halted.atMost, work ▸ halted.short, ?_⟩
      · rw [failure_withAgenda, failure_noting, halted.failed]
      · rw [completed_withAgenda, completed, halted.completed]
      · exact halted.blames.of_cleaning agenda halted.failed rfl cleans spawns

omit [Scalar α] in
/-- What others do to the board counts no work. -/
theorem Halted.of_work_eq (halted : Halted finished command error board worker)
    (work : after.work = board.work) : Halted finished command error after worker :=
  ⟨halted.failed, halted.completed, work ▸ halted.atLeast, work ▸ halted.atMost,
    work ▸ halted.short, halted.blames⟩

/-! ## Failing -/

omit [Scalar α] in
/-- Between two steps a run can only be aborted, at the safe point in front of the next one. -/
theorem Between.exists_of_fails {step : Nat} {ahead : List (Command α)}
    (between : Between step ahead (task :: rest)) (fails : task.Fails board reply error) :
    error = .interrupted ∧ task = .safePoint ∧ ∃ id command remaining,
      ahead = command :: remaining.map Prod.snd ∧
      rest = .openStep step :: .announceStart step id command ::
        .closeStep step command.description :: .steps (step + 1) remaining :: endTasks := by
  generalize shape : task :: rest = agenda at between
  cases between with
  | safePoint id command remaining =>
      obtain ⟨rfl, rfl⟩ := List.cons.inj shape
      cases fails with
      | safePoint => exact ⟨rfl, rfl, id, command, remaining, rfl, rfl⟩
  | ending ends => cases ends <;> (obtain ⟨rfl, rfl⟩ := List.cons.inj shape; cases fails)
  | _ =>
      obtain ⟨rfl, rfl⟩ := List.cons.inj shape
      cases fails

/-- Between two steps an abort stops a run at the next one. -/
theorem halted_of_between {ahead : List (Command α)} (agenda : worker.agenda = task :: rest)
    (fails : task.Fails board reply error) (split : steps = finished ++ ahead)
    (place : Between (finished.length + 1) ahead worker.agenda)
    (shown : board.work.performed = .ofNat (Command.unitsOf finished))
    (fits : Command.unitsOf steps < 2 ^ 64)
    (ongoing : worker.completed + ((Ledger.steps α .closed).left worker.agenda).length =
      steps.length) :
    ∃ command behind, steps = finished ++ command :: behind ∧
      Halted finished command error board
        { worker with agenda := unwind rest, failure := some error } := by
  rw [agenda] at place ongoing
  obtain ⟨rfl, rfl, id, command, remaining, rfl, rfl⟩ := place.exists_of_fails fails
  have units : Command.unitsOf finished < 2 ^ 64 := by
    rw [split, Command.unitsOf_append] at fits
    omega
  have performed : board.work.performed.toNat = Command.unitsOf finished := by
    rw [shown, UInt64.toNat_ofNat', Nat.mod_eq_of_lt units]
  refine ⟨command, remaining.map Prod.snd, split, rfl, ?_, Nat.le_of_eq performed.symm, ?_, nofun,
    .pending [] rfl nofun ?_⟩
  · simpa [split, Ledger.left, Ledger.steps, Mark.due, Mark.does, endTasks] using ongoing
  · omega
  · intro task member
    rcases List.mem_cons.mp member with rfl | member
    · rfl
    · exact isBetween_endTasks task member

omit [Scalar α] in
/-- What is counted within a step is told when a task fails there. -/
theorem Inside.performed_of_fails {id count done units : Nat} {inner : List (Task α)}
    (inside : Inside board worker.failure id count done units (task :: inner))
    (fails : task.Fails board reply error) : board.work.performed = .ofNat (count + done) := by
  have counting := inside.counting
  generalize shape : task :: inner = front at counting
  cases counting with
  | told shown => exact shown
  | untold =>
      obtain ⟨rfl, -⟩ := List.cons.inj shape
      cases fails

omit [Scalar α] in
/-- A worker that has just failed within a step comes to the close of this step. -/
theorem Blames.of_within {step id : Nat} {description : String} {info : ErrorInfo}
    {inner : List (Task α)} {remaining : List (Nat × Command α)}
    (nested : ∀ task ∈ inner, task.isNested = true) :
    Blames { worker with
        agenda := unwind (inner ++ .announceFinish step id :: .closeStep step description ::
          .steps (step + 1) remaining :: endTasks)
        failure := some error } ⟨step, description, info⟩ := by
  have closing : unwind (inner ++ .announceFinish step id :: .closeStep step description ::
        .steps (step + 1) remaining :: endTasks) =
      (unwind inner ++ [Task.announceFinish step id]) ++
        .closeStep step description :: .steps (step + 1) remaining :: endTasks := by
    rw [unwind_append_cons rfl, List.append_assoc]
    rfl
  refine .pending _ closing (fun task member => ?_) fun task member => ?_
  · rcases List.mem_append.mp member with member | member
    · exact Task.isWithin_of_isNested (nested task ((unwind_suffix inner).mem member))
    · cases List.mem_singleton.mp member
      rfl
  · rcases List.mem_cons.mp member with rfl | member
    · rfl
    · exact isBetween_endTasks task member

/-- Within a step an error stops a run at this step. -/
theorem halted_of_within {remaining : List (Nat × Command α)} {id done : Nat}
    {inner : List (Task α)} (agenda : worker.agenda = task :: rest)
    (fails : task.Fails board reply error) (sound : worker.failure = none)
    (split : steps = finished ++ command :: remaining.map Prod.snd)
    (place : worker.agenda = inner ++ .announceFinish (finished.length + 1) id ::
      .closeStep (finished.length + 1) command.description ::
        .steps (finished.length + 2) remaining :: endTasks)
    (inside : Inside board worker.failure id (Command.unitsOf finished) done
      command.workUnits.toNat inner)
    (numbered : worker.IsNumbered board) (backed : IsBacked worker.agenda)
    (fits : Command.unitsOf steps < 2 ^ 64)
    (ongoing : worker.completed + ((Ledger.steps α .closed).left worker.agenda).length =
      steps.length) :
    Halted finished command error board
      { worker with agenda := unwind rest, failure := some error } := by
  cases inner with
  | nil =>
      obtain ⟨rfl, -⟩ := List.cons.inj (agenda.symm.trans place)
      cases fails
  | cons first inner =>
      rw [List.cons_append] at place
      obtain ⟨rfl, rfl⟩ := List.cons.inj (agenda.symm.trans place)
      have nested := inside.settles.isNested
      have whole := inside.exact sound
      rw [words_cons] at whole
      have units : Command.unitsOf finished + command.workUnits.toNat < 2 ^ 64 := by
        have sum : Command.unitsOf steps = Command.unitsOf finished +
            (command.workUnits.toNat + Command.unitsOf (remaining.map Prod.snd)) := by
          rw [split, Command.unitsOf_append]
          rfl
        omega
      have performed : board.work.performed.toNat = Command.unitsOf finished + done := by
        rw [inside.performed_of_fails fails, UInt64.toNat_ofNat', Nat.mod_eq_of_lt (by omega)]
      have behind : ∀ task ∈ inner, task.isNested = true :=
        fun task member => nested task (List.mem_cons_of_mem _ member)
      refine ⟨rfl, ?_, by omega, by omega, fun proper => ?_, .of_within behind⟩
      · have none : ((task :: inner).flatMap Mark.closed.due : List Nat) = [] :=
          flatMap_eq_nil_of_forall (fun _ => Mark.closed.due_of_isNested) nested
        rw [place, ← List.cons_append, Ledger.left, List.flatMap_append] at ongoing
        simpa [Ledger.steps, none, Mark.due, Mark.does, endTasks, split] using ongoing
      · rw [agenda] at backed
        have risky := Task.isRisky_of_fails numbered agenda fails proper
        obtain ⟨unit, next, -⟩ := backed.1 risky
        have further := one_le_words_of_nextUnit? next rfl rfl
        omega

/-- A task that fails stops the run at the step that comes after those that it told are completed. -/
theorem Tells.halted_of_fails {total : UInt64} {told : List Event}
    (tells : worker.Tells total steps board told) (agenda : worker.agenda = task :: rest)
    (sound : worker.failure = none) (fails : task.Fails board reply error)
    (numbered : worker.IsNumbered board) (backed : IsBacked worker.agenda)
    (fits : Command.unitsOf steps < 2 ^ 64)
    (ongoing : worker.completed + ((Ledger.steps α .closed).left worker.agenda).length =
      steps.length) :
    ∃ finished command behind, steps = finished ++ command :: behind ∧
      told.filterMap Event.completed? = List.range' 1 finished.length ∧
      Halted finished command error board
        { worker with agenda := unwind rest, failure := some error } := by
  cases tells with
  | opening _ place =>
      obtain ⟨rfl, -⟩ := List.cons.inj (agenda.symm.trans place)
      cases fails
  | @between finished _ _ split place shown =>
      obtain ⟨command, behind, split, halted⟩ :=
        halted_of_between agenda fails split place shown fits ongoing
      exact ⟨finished, command, behind, split, Event.completed_chronicle .., halted⟩
  | @within finished command remaining _ _ _ split place inside =>
      refine ⟨finished, command, remaining.map Prod.snd, split, ?_,
        halted_of_within agenda fails sound split place inside numbered backed fits ongoing⟩
      rw [List.filterMap_append, Event.completed_chronicle, Event.completed_opening,
        List.append_nil]
  | stopped failed => simp [failed] at sound
  | reported _ _ place =>
      rw [agenda] at place
      rcases cases_of_reported place List.mem_cons_self with rfl | rfl | rfl <;> cases fails

end Steps

end Worker

/-! ## Lives -/

section Lives

variable [Scalar α] {others : Board → Board → Prop} {board now : Board} {steps : List (Command α)}
variable {pollInterval : Duration} {runId : String} {name : Option String} {totalWork : UInt64}
variable {current : Worker α} {past : List (Deed α)}

/-- As long as a run has not failed, the steps that it has completed and those whose close is still to
come are all its steps. -/
theorem Life.completed_add_open
    (life : Life others board (.ofSteps steps pollInterval runId name totalWork) past now current)
    (sound : current.failure = none) :
    current.completed + ((Ledger.steps α .closed).left current.agenda).length = steps.length := by
  have account := (Ledger.steps α .closed).done_append_left life nofun sound
  rw [Ledger.left_steps_ofSteps] at account
  rw [life.completed_eq sound, ← List.length_append, account, List.length_range']

/-- As long as a run has not failed there is a unit of work behind every risky errand. -/
theorem Life.isBacked_ofSteps
    (life : Life others board (.ofSteps steps pollInterval runId name totalWork) past now current)
    (sound : current.failure = none) : Worker.IsBacked current.agenda :=
  life.isBacked nofun (by simp [Worker.ofSteps, Worker.IsBacked, Task.isRisky]) sound

/-- The worker of a run is at some place of its chronicle at any time. -/
theorem Life.exists_tells
    (life : Life others board (.ofSteps steps pollInterval runId name totalWork) past now current)
    (keeps : ∀ {now after : Board}, others now after → now.Foreign after)
    (accounted : ∀ command ∈ steps, command.IsAccounted)
    (fresh : board.work = WorkCounter.reset totalWork) :
    ∃ told, current.Tells totalWork steps now told := by
  induction life with
  | begin => exact ⟨[], Worker.tells_ofSteps fresh ..⟩
  | wait _ other ih =>
      obtain ⟨told, tells⟩ := ih
      exact ⟨told, tells.of_foreign (keeps other)⟩
  | work life agenda stepped ih =>
      obtain ⟨told, tells⟩ := ih
      have total := life.total_eq nofun fun other => (keeps other).work
      rw [fresh] at total
      have outcome := Worker.outcome_of_step? (life.isSteady nofun) agenda stepped
      have known := life.isNumbered nofun keeps (Worker.isNumbered_ofSteps ..)
      exact ⟨_, outcome.tells agenda accounted (fun _ => ⟨known, total⟩) tells⟩

/-- A run that an error has stopped has stopped at one of its steps. -/
theorem Life.halted
    (life : Life others board (.ofSteps steps pollInterval runId name totalWork) past now current)
    (keeps : ∀ {now after : Board}, others now after → now.Foreign after)
    (accounted : ∀ command ∈ steps, command.IsAccounted)
    (fits : Command.unitsOf steps < 2 ^ 64) (fresh : board.work = WorkCounter.reset totalWork)
    {error : ScanError} (failed : current.failure = some error) :
    ∃ finished command behind, steps = finished ++ command :: behind ∧
      Worker.Halted finished command error now current := by
  induction life with
  | begin => cases failed
  | wait _ other ih =>
      obtain ⟨finished, command, behind, split, halted⟩ := ih failed
      exact ⟨finished, command, behind, split, halted.of_work_eq (keeps other).work⟩
  | work life agenda stepped ih =>
      have outcome := Worker.outcome_of_step? (life.isSteady nofun) agenda stepped
      cases outcome with
      | sound sound => simp [sound] at failed
      | broken sound fails =>
          cases failed
          obtain ⟨told, tells⟩ := life.exists_tells keeps accounted fresh
          obtain ⟨finished, command, behind, split, -, halted⟩ :=
            tells.halted_of_fails agenda sound fails
              (life.isNumbered nofun keeps (Worker.isNumbered_ofSteps ..))
              (life.isBacked_ofSteps sound) fits (life.completed_add_open sound)
          exact ⟨finished, command, behind, split, halted⟩
      | cleaning _ _ spawns =>
          obtain ⟨finished, command, behind, split, halted⟩ := ih (by simpa using failed)
          exact ⟨finished, command, behind, split, halted.of_outcome agenda
            (Worker.outcome_of_step? (life.isSteady nofun) agenda stepped)⟩

end Lives

end Scan
