import Scan.Proofs.Compiled
import Scan.Proofs.Halting
import Scan.Proofs.Hearing
import Scan.Proofs.Preflight

/-!
# Reports are consistent

The fields of a report come from different places: the state and the error from what the worker fared
with, the number of completed steps and the step at which the run stopped from its closes of steps,
the work from the counter on the board. They go together for every run.
-/

namespace Scan

variable {α : Type}

/-! ## Steps that are told to be completed -/

section Told

variable [Scalar α] {sequencer : Sequencer α} {board after : Board} {worker next : Worker α}
variable {task : Task α} {rest : List (Task α)} {reply : Option (Reply α)} {error : ScanError}
variable {total : UInt64} {steps : List (Command α)} {told : List Event}

omit [Scalar α] in
/-- Cleaning up never tells that a step is completed. -/
theorem Worker.Tells.uncompleted_of_cleaning (tells : worker.Tells total steps board told)
    (agenda : worker.agenda = task :: rest) (failed : worker.failure = some error)
    (cleans : task.cleansUp = true) : (task.event? board).bind Event.completed? = none := by
  cases tells with
  | opening sound | between sound => simp [failed] at sound
  | within split place inside =>
      rename_i inner
      cases inner with
      | nil =>
          obtain ⟨rfl, -⟩ := List.cons.inj (agenda.symm.trans place)
          rw [Task.event?, inside.settles.status_eq, failed]
          cases error <;> rfl
      | cons first inner =>
          obtain ⟨rfl, -⟩ := List.cons.inj (agenda.symm.trans place)
          have nested := inside.settles.isNested task List.mem_cons_self
          have quiet : task.isWord = false := by
            cases task <;> first | rfl | exact absurd cleans Bool.false_ne_true
          rw [Task.event?_of_isNested nested quiet]
          rfl
  | stopped _ place =>
      rw [agenda] at place
      generalize shape : task :: rest = ahead at place
      cases place with
      | closeStep =>
          obtain ⟨rfl, -⟩ := List.cons.inj shape
          rfl
      | ending ends => cases ends <;> (obtain ⟨rfl, -⟩ := List.cons.inj shape; rfl)
  | reported _ _ place =>
      rw [agenda] at place
      rcases Worker.cases_of_reported place List.mem_cons_self with rfl | rfl | rfl <;> rfl

theorem Event.completed_concat (told : List Event) (event : Option Event) :
    (told ++ event.toList).filterMap completed? =
      told.filterMap completed? ++ (event.bind completed?).toList := by
  cases event with
  | none => simp
  | some event => cases completed : event.completed? <;> simp [completed]

/-- Whether a run that has failed has told that the steps are completed which it has noted to be. -/
def Worker.Tallies (worker : Worker α) (told : List Event) : Prop :=
  worker.failure.isSome = true →
    told.filterMap Event.completed? = List.range' 1 worker.completed

omit [Scalar α] in
/-- A run that is over does not fail any more. -/
theorem Worker.Tells.isOpen_of_fails (tells : worker.Tells total steps board told)
    (agenda : worker.agenda = task :: rest) (fails : task.Fails board reply error) :
    worker.IsOpen := by
  by_contra ended
  obtain ⟨report, _, _, _, place, _⟩ :=
    tells.of_unreported fun member => ended ⟨.report, member, rfl⟩
  rw [agenda] at place
  rcases cases_of_reported place List.mem_cons_self with rfl | rfl | rfl <;> cases fails

omit [Scalar α] in
/-- A run that reports that it has finished has told that all its steps are completed. -/
theorem Worker.Tells.completed_of_finished {report : RunReport}
    (tells : worker.Tells total steps board told) (unreported : .report ∉ worker.agenda)
    (reported : worker.report = some report) (finished : report.state = .finished) :
    told.filterMap Event.completed? = List.range' 1 steps.length := by
  obtain ⟨_, events, kept, whole, place, all⟩ := tells.of_unreported unreported
  cases kept.symm.trans reported
  rw [finished] at whole
  have silent : (worker.agenda.filterMap Task.announced?).filterMap Event.completed? = [] := by
    rw [List.filterMap_filterMap, List.filterMap_eq_nil_iff]
    intro task member
    rcases Worker.cases_of_reported place member with rfl | rfl | rfl <;> rfl
  have completed := congrArg (List.filterMap Event.completed?) all
  rw [List.filterMap_append, List.filterMap_append, silent, whole.eq_of_finished,
    Event.completed_chronicle, List.append_nil] at completed
  exact completed.trans (List.append_nil _)

/-- What a run tells is completed goes on to be what it has noted. -/
theorem Sequencer.keeps_tallies (accounted : ∀ command ∈ sequencer.steps, command.IsAccounted)
    (fits : Command.unitsOf sequencer.steps < 2 ^ 64) :
    sequencer.Keeps fun board worker told =>
      worker.Tells sequencer.totalWork sequencer.steps board told ∧ worker.Tallies told where
  foreign := fun foreign kept => ⟨kept.1.of_foreign foreign, kept.2⟩
  ended := fun ended kept => ⟨kept.1.of_over ended _, kept.2⟩
  step := by
    rintro board after worker next task rest reply told agenda outcome lives ⟨tells, tallies⟩
    refine ⟨outcome.tells agenda accounted (fun isOpen => (lives isOpen).known) tells, ?_⟩
    rw [Worker.Tallies, Event.completed_concat]
    cases outcome with
    | sound sound => simp [sound]
    | broken sound fails =>
        intro
        obtain ⟨runId, first, past, life, work⟩ := lives (tells.isOpen_of_fails agenda fails)
        obtain ⟨finished, command, behind, -, completed, halted⟩ :=
          tells.halted_of_fails agenda sound fails
            (life.isNumbered nofun id (Worker.isNumbered_ofSteps ..)) (life.isBacked_ofSteps sound) fits
            (life.completed_add_open sound)
        rw [Task.event?_of_fails fails, completed, halted.completed]
        exact List.append_nil _
    | cleaning failed cleans spawns =>
        intro
        obtain ⟨error, broken⟩ := Option.isSome_iff_exists.mp failed
        rw [tells.uncompleted_of_cleaning agenda broken cleans, tallies failed,
          Worker.completed_withAgenda, (Worker.noting_of_cleaning broken cleans spawns).2]
        exact List.append_nil _

end Told

/-! ## The fields of a report -/

/-- What a report says of the step at which a run of some steps stopped. -/
structure RunReport.StopsAt (report : RunReport) (steps : List (Command α))
    (stopped : StoppedStep) : Prop where
  step : stopped.step = report.stepsCompleted + 1
  inBounds : stopped.step ≤ steps.length
  description : steps[report.stepsCompleted]?.map (·.description) = some stopped.description
  aborted_iff : report.state = .aborted ↔ stopped.error.code = .interrupted
  failed_iff : report.state = .failed ↔ stopped.error.code ≠ .interrupted
  atLeast : Command.unitsOf (steps.take (stopped.step - 1)) ≤ report.workPerformed.toNat
  atMost : report.workPerformed.toNat ≤ Command.unitsOf (steps.take stopped.step)
  short : report.state = .failed →
    report.workPerformed.toNat < Command.unitsOf (steps.take stopped.step)

/-- What a report says of a run of some steps goes together. -/
structure RunReport.IsConsistent (report : RunReport) (steps : List (Command α)) : Prop where
  ended : report.state = .finished ∨ report.state = .aborted ∨ report.state = .failed
  finished_iff : report.state = .finished ↔ report.stoppedAt = none
  unstopped_iff : report.stoppedAt = none ↔ report.stepsCompleted = steps.length
  stops : ∀ stopped, report.stoppedAt = some stopped → report.StopsAt steps stopped

namespace Worker

theorem finalState_cases (failure : Option ScanError) :
    finalState failure = .finished ∨ finalState failure = .aborted ∨
      finalState failure = .failed := by
  unfold finalState
  split <;> simp

theorem finalState_some_ne_finished (error : ScanError) :
    finalState (some error) ≠ .finished :=
  fun finished => nomatch finalState_eq_finished.mp finished

theorem finalState_eq_aborted {error : ScanError} :
    finalState (some error) = .aborted ↔ error.info.code = .interrupted := by
  cases error <;> simp [finalState, ScanError.info, ScanError.code]

theorem finalState_eq_failed {error : ScanError} :
    finalState (some error) = .failed ↔ error.info.code ≠ .interrupted := by
  cases error <;> simp [finalState, ScanError.info, ScanError.code]

/-- The report of a run that an error has stopped at one of its steps is consistent. -/
theorem Halted.isConsistent {finished behind : List (Command α)} {command : Command α}
    {error : ScanError} {board : Board} {worker : Worker α} {report : RunReport}
    (halted : Halted finished command error board worker) (reports : worker.Reports board report)
    (closed : ∀ step description, .closeStep step description ∉ worker.agenda) :
    report.IsConsistent (finished ++ command :: behind) := by
  have completed : report.stepsCompleted = finished.length :=
    reports.stepsCompleted.trans halted.completed
  have state : report.state = finalState (some error) := by
    rw [reports.state, halted.failed]
  have stoppedAt :
      report.stoppedAt = some ⟨finished.length + 1, command.description, error.info⟩ := by
    cases halted.blames with
    | pending inner agenda =>
        exact absurd (agenda ▸ List.mem_append_right _ List.mem_cons_self) (closed _ _)
    | noted _ kept => exact reports.stoppedAt.trans kept
  have before : (finished ++ command :: behind).take finished.length = finished :=
    List.take_left
  have upTo : Command.unitsOf ((finished ++ command :: behind).take (finished.length + 1)) =
      Command.unitsOf finished + command.workUnits.toNat := by
    rw [List.take_length_add_append, Command.unitsOf_append]
    rfl
  constructor
  · exact state ▸ finalState_cases _
  · simp [state, stoppedAt, finalState_some_ne_finished]
  · simp [stoppedAt, completed]
  · intro stopped same
    cases stoppedAt.symm.trans same
    constructor
    · rw [completed]
    · simp
    · simp [completed]
    · rw [state, finalState_eq_aborted]
    · rw [state, finalState_eq_failed]
    · rw [Nat.add_sub_cancel, before, reports.workPerformed]
      exact halted.atLeast
    · rw [upTo, reports.workPerformed]
      exact halted.atMost
    · intro failed
      rw [upTo, reports.workPerformed]
      apply halted.short
      rw [state] at failed
      cases error <;> first | rfl | cases failed

end Worker

/-- The report of a run is consistent. -/
theorem Life.isConsistent [Scalar α] {sequence : Sequence} {pollInterval : Duration}
    {sequencer : Sequencer α} {others : Board → Board → Prop} {board now : Board}
    {current : Worker α} {past : List (Deed α)} {runId : String} {report : RunReport}
    (accepted : Sequencer.ofSequence sequence pollInterval = .ok sequencer)
    (life : Life others board (sequencer.worker runId) past now current)
    (keeps : ∀ {now after : Board}, others now after → now.Foreign after)
    (fresh : board.work = WorkCounter.reset sequencer.totalWork)
    (reported : current.report = some report) : report.IsConsistent sequencer.steps := by
  obtain ⟨compiled, -, -⟩ := Sequencer.ofSequence_eq_ok accepted
  have accounted : ∀ command ∈ sequencer.steps, command.IsAccounted :=
    Command.isAccounted_of_compileAll sequence.steps compiled
  have fits : Command.unitsOf sequencer.steps < 2 ^ 64 := by
    rw [Sequencer.unitsOf_steps accepted]
    exact sequencer.totalWork.toNat_lt
  have work : ∀ {now after : Board}, others now after → after.work = now.work :=
    fun other => (keeps other).work
  obtain ⟨reports, ending⟩ :=
    (life.stage nofun work (Worker.stage_ofSteps ..)).agenda_of_report reported
  cases failure : current.failure with
  | some error =>
      obtain ⟨finished, command, behind, split, halted⟩ :=
        life.halted keeps accounted fits fresh failure
      rw [split]
      apply halted.isConsistent reports
      intro step description member
      rcases ending _ member with same | ⟨event, same⟩ <;> cases same
  | none =>
      have finished : report.state = .finished := by
        rw [reports.state, failure]
        rfl
      have unstopped : report.stoppedAt = none := by
        have named := life.stoppedAt_eq reports ending
        rw [failure] at named
        exact Option.map_eq_none_iff.mp named
      obtain ⟨-, -, completed, -⟩ := life.accounts_of_finished work reported finished
      exact ⟨.inl finished, by simp [finished, unstopped], by simp [unstopped, completed],
        by simp [unstopped]⟩

section Plays

variable [Scalar α] {sequence : Sequence} {pollInterval : Duration} {sequencer : Sequencer α}
variable {past : List (Turn α)} {scene : Scene α} {run : Nat} {worker : Worker α}

/-- Every run of an accepted sequence comes to its end with a report, and what the report says goes
together. It is finished if and only if it did not stop at a step, and if and only if it completed
all steps; the steps that it told are completed are the first ones, as many as it reports. Otherwise
it stopped at the next step, by an abort or by a failure. The work that it reports is that of the
steps before and some of this step, which after a failure is not all of it. -/
theorem reports_are_consistent
    (accepted : Sequencer.ofSequence sequence pollInterval = .ok sequencer)
    (plays : sequencer.scene.Plays past scene) (begun : scene.workers[run]? = some worker) :
    sequencer.steps.length = sequence.steps.length ∧
      (worker.agenda = [] → worker.report.isSome = true) ∧
      ∀ report, worker.report = some report → report.IsConsistent sequencer.steps ∧
        (toldOf run past).filterMap Event.completed? = List.range' 1 report.stepsCompleted := by
  obtain ⟨compiled, -, -⟩ := Sequencer.ofSequence_eq_ok accepted
  have accounted : ∀ command ∈ sequencer.steps, command.IsAccounted :=
    Command.isAccounted_of_compileAll sequence.steps compiled
  have fits : Command.unitsOf sequencer.steps < 2 ^ 64 := by
    rw [Sequencer.unitsOf_steps accepted]
    exact sequencer.totalWork.toNat_lt
  obtain ⟨runId, first, view, followed, fresh, -⟩ := plays.sound.follows begun
  refine ⟨Command.length_of_compileAll compiled, fun done => ?_, fun report reported => ?_⟩
  · obtain ⟨report, reported, -⟩ := followed.report_of_done done
    simp [reported]
  · obtain ⟨reports, ending⟩ := followed.agenda_of_report reported
    obtain ⟨tells, tallies⟩ := plays.kept (sequencer.keeps_tallies accounted fits)
      (fun work => ⟨Worker.tells_ofSteps work .., nofun⟩) begun
    refine ⟨followed.life.isConsistent accepted id fresh reported, ?_⟩
    cases failure : worker.failure with
    | some error =>
        rw [reports.stepsCompleted]
        exact tallies (by simp [failure])
    | none =>
        have finished : report.state = .finished := by
          rw [reports.state, failure]
          rfl
        obtain ⟨-, -, completed, -⟩ :=
          followed.life.accounts_of_finished Board.Foreign.work reported finished
        have through : .report ∉ worker.agenda := by
          intro member
          rcases ending _ member with same | ⟨event, same⟩ <;> cases same
        rw [completed]
        exact tells.completed_of_finished through reported finished

/-- A run that fails over the second step of a group, which is the second of three steps, has
counted the first step and the first step of the group. -/
theorem report_of_failed_group_is_consistent :
    ∃ (sequencer : Sequencer Rat) (report : RunReport) (stopped : StoppedStep),
      report.state = .failed ∧ report.workPerformed = 2 ∧ report.stoppedAt = some stopped ∧
        stopped.step = 2 ∧ report.StopsAt sequencer.steps stopped := by
  have rehearsed : Scene.rehearse (α := Rat)
      ⟨none, [.comment "first", .group [.comment "inner",
        (Descriptor.set "a" 0).withParam "value" (.string "x"), .comment "last"],
          .comment "second"]⟩ ⟨2000000⟩
      (.execute "run" :: Scene.workActs 2
        [(.told 0, 28), (.evaluated (.error ⟨"x", "unknown"⟩), 8), (.told 0, 3)])
      (fun _ scene => (scene.workers[0]?.bind Worker.report).any fun report =>
        decide (report.state = .failed) && decide (report.workPerformed = 2) &&
        report.stoppedAt.any fun stopped => stopped.step == 2) = true := by
    with_unfolding_all decide
  obtain ⟨sequencer, past, scene, accepted, plays, test⟩ := Scene.exists_of_rehearse rehearsed
  simp only [Bool.and_eq_true, decide_eq_true_eq, Option.any_eq_true, Option.bind_eq_some_iff,
    beq_iff_eq] at test
  obtain ⟨report, ⟨worker, begun, reported⟩, ⟨failed, counted⟩, stopped, stoppedAt, second⟩ := test
  obtain ⟨-, -, consistent⟩ := reports_are_consistent accepted plays begun
  exact ⟨sequencer, report, stopped, failed, counted, stoppedAt, second,
    (consistent report reported).1.stops stopped stoppedAt⟩

end Plays

end Scan
