import Scan.Proofs.Completeness
import Scan.Proofs.DryRuns
import Scan.Proofs.Ending
import Scan.Proofs.Verdict

/-!
# Runs and dry runs

A dry run tells beforehand how the expressions of a run fare and what the run writes. If the dry run
succeeds no run stops at an expression; if it fails every run that comes as far stops there as well,
after as many units of work as the dry run has entries. The writes of a run are the first ones of
those that the dry run has listed, and all of them if the run is finished.
-/

namespace Scan

variable {α : Type}

/-- Whether an error comes from outside: an access failed, a wait took too long or the run was
aborted. -/
def ScanError.isExternal : ScanError → Bool
  | .liveIo .. | .timeout .. | .interrupted => true
  | _ => false

/-- Errors that come from outside are reported under codes of their own. -/
theorem ScanError.code_of_isExternal {error : ScanError} (external : error.isExternal = true) :
    error.code ∈ [ErrorCode.ioError, .timeout, .interrupted] := by
  cases error <;> first | exact absurd external Bool.false_ne_true | simp [code]

section Lives

variable [Scalar α] {others : Board → Board → Prop} {board now : Board}
variable {worker current : Worker α} {past : List (Deed α)}

omit [Scalar α] in
/-- A step with a fresh monitor is not refused, so a task fails over an expression or for a reason
that comes from outside. -/
theorem Task.isExternal_of_fails {task : Task α} {rest : List (Task α)}
    {reply : Option (Reply α)} {error : ScanError} (numbered : current.IsNumbered now)
    (agenda : current.agenda = task :: rest) (fails : task.Fails now reply error)
    (other : error.evalError? = none) : error.isExternal = true := by
  cases fails with
  | evaluated => cases other
  | refused id command used => simp [numbered.canAdvance agenda] at used
  | safePoint | baseline | write | heedAbort | probe | timeout => rfl

/-- What stops a run is an expression without a value or comes from outside. -/
theorem Life.isExternal_of_failure (life : Life others board worker past now current)
    (steady : worker.IsSteady) (numbered : worker.IsNumbered board)
    (keeps : ∀ {now after : Board}, others now after → now.Foreign after)
    (sound : worker.failure = none) {error : ScanError} (failed : current.failure = some error)
    (other : error.evalError? = none) : error.isExternal = true := by
  induction life with
  | begin => simp [sound] at failed
  | wait _ _ ih => exact ih failed
  | work life agenda stepped ih =>
      cases Worker.outcome_of_step? (life.isSteady steady) agenda stepped with
      | sound none =>
          rw [Worker.failure_withAgenda, Worker.failure_noting, none] at failed
          cases failed
      | broken _ fails =>
          cases failed
          exact Task.isExternal_of_fails (life.isNumbered steady keeps numbered) agenda fails other
      | cleaning =>
          apply ih
          simpa using failed

omit [Scalar α] in
/-- A worker that has written its report has the state to set and events to publish, at most. -/
theorem Worker.Stage.agenda_of_report {view : Board} {report : RunReport}
    (stage : Stage view current) (reported : current.report = some report) :
    current.Reports view report ∧
      ∀ task ∈ current.agenda, task = .setState report.state ∨ ∃ event, task = .announce event := by
  cases stage with
  | working _ _ _ unreported => simp [unreported] at reported
  | reporting own agenda reports =>
      cases reports.kept.symm.trans reported
      refine ⟨reports, ?_⟩
      rw [agenda]
      simp
  | closed own agenda reports =>
      cases reports.kept.symm.trans reported
      exact ⟨reports, fun task member => .inr (Worker.exists_event_of_suffix agenda member)⟩

/-- A report names the error that stopped the run, if there is one. -/
theorem Life.stoppedAt_eq {steps : List (Command α)} {pollInterval : Duration} {runId : String}
    {name : Option String} {totalWork : UInt64} {view : Board} {report : RunReport}
    (life : Life others board (.ofSteps steps pollInterval runId name totalWork) past now current)
    (reports : current.Reports view report)
    (ending : ∀ task ∈ current.agenda,
      task = .setState report.state ∨ ∃ event, task = .announce event) :
    report.stoppedAt.map (·.error) = current.failure.map (·.info) := by
  rw [reports.stoppedAt]
  cases life.noted nofun (Worker.noted_ofSteps ..) with
  | within inner agenda =>
      have member : Task.closeStep _ _ ∈ current.agenda :=
        agenda ▸ List.mem_append_right _ List.mem_cons_self
      rcases ending _ member with same | ⟨event, same⟩ <;> cases same
  | between _ noted => exact noted

end Lives

/-! ## Writes -/

/-- The write that a task makes. -/
def Task.write? : Task α → Option (String × α)
  | .write channel value => some (channel, value)
  | _ => none

/-- The write that a worker makes with success. -/
def Deed.written? : Deed α → Option (String × α)
  | ⟨.write channel value, some (.wrote (.ok ()))⟩ => some (channel, value)
  | _ => none

/-- The writes that a run attempts in some turns, in order. -/
def attemptedWrites (run : Nat) (turns : List (Turn α)) : List (String × α) :=
  (deedsOf run turns).filterMap fun deed => deed.task.write?

/-- The writes that a run makes with success in some turns, in order. -/
def completedWrites (run : Nat) (turns : List (Turn α)) : List (String × α) :=
  (deedsOf run turns).filterMap Deed.written?

/-- The writes among the cues that a worker takes are those that it attempts. -/
theorem filterMap_write?_cuesOf (past : List (Deed α)) :
    (cuesOf past).filterMap Cue.write? = past.filterMap fun deed => deed.task.write? := by
  rw [cuesOf, List.filterMap_filterMap]
  congr 1
  funext deed
  obtain ⟨task, reply⟩ := deed
  cases task with
  | resolve id quantity purpose => cases quantity <;> rfl
  | _ => rfl

/-- As long as a worker has not failed, all its writes were made with success. -/
theorem Life.filterMap_written? [Scalar α] {others : Board → Board → Prop} {board now : Board}
    {worker current : Worker α} {past : List (Deed α)}
    (life : Life others board worker past now current) (steady : worker.IsSteady)
    (sound : current.failure = none) :
    past.filterMap Deed.written? = past.filterMap fun deed => deed.task.write? := by
  induction life with
  | begin => rfl
  | wait _ _ ih => exact ih sound
  | work life agenda stepped ih =>
      cases Worker.outcome_of_step? (life.isSteady steady) agenda stepped with
      | sound before spawns =>
          rw [List.filterMap_append, List.filterMap_append, ih before]
          congr 1
          cases spawns <;> rfl
      | broken => cases sound
      | cleaning failed => simp_all

/-! ## Runs of a sequence -/

section Plays

variable [Scalar α] {sequence : Sequence} {pollInterval : Duration} {sequencer : Sequencer α}
variable {past : List (Turn α)} {scene : Scene α} {run : Nat} {worker : Worker α}
variable {runId : String} {first view : Board} {evaluate : String → Except EvalError α}
variable {report : RunReport}

/-- A run takes the cues of the expansion of its steps. -/
theorem Followed.heeds
    (followed : Followed (sequencer.worker runId) first past scene run worker view)
    (evaluated : ∀ deed ∈ deedsOf run past, deed.IsEvaluatedBy evaluate) :
    worker.Heeds evaluate
      ((Command.expandAll sequencer.steps).flatMap (WorkUnit.cues evaluate))
      (deedsOf run past) := by
  rw [← Worker.flatMap_cues_ofSteps evaluate sequencer.steps sequencer.pollInterval runId
    sequencer.sequence.name sequencer.totalWork]
  exact followed.life.heeds rfl evaluated

/-- A worker that has written its report has the state to set and events to publish, at most. -/
theorem Followed.agenda_of_report
    (followed : Followed (sequencer.worker runId) first past scene run worker view)
    (reported : worker.report = some report) :
    worker.Reports view report ∧
      ∀ task ∈ worker.agenda, task = .setState report.state ∨ ∃ event, task = .announce event :=
  followed.stage.agenda_of_report reported

/-- A report names the error that stopped the run, if there is one. -/
theorem Followed.stoppedAt_eq
    (followed : Followed (sequencer.worker runId) first past scene run worker view)
    (reported : worker.report = some report) :
    report.stoppedAt.map (·.error) = worker.failure.map (·.info) := by
  obtain ⟨reports, ending⟩ := followed.agenda_of_report reported
  exact followed.life.stoppedAt_eq reports ending

/-- A run that is reported as finished has taken all its cues, and none of them was faulty. -/
theorem Followed.cues_of_finished
    (followed : Followed (sequencer.worker runId) first past scene run worker view)
    (evaluated : ∀ deed ∈ deedsOf run past, deed.IsEvaluatedBy evaluate)
    (reported : worker.report = some report) (finished : report.state = .finished) :
    worker.failure = none ∧
      cuesOf (deedsOf run past) =
        (Command.expandAll sequencer.steps).flatMap (WorkUnit.cues evaluate) ∧
      Cue.firstFault? evaluate
        ((Command.expandAll sequencer.steps).flatMap (WorkUnit.cues evaluate)) = none := by
  obtain ⟨reports, ending⟩ := followed.agenda_of_report reported
  have sound : worker.failure = none :=
    Worker.finalState_eq_finished.mp (reports.state.symm.trans finished)
  have ended : worker.agenda.flatMap (Task.cues evaluate) = [] := by
    apply List.flatMap_eq_nil_iff.mpr
    intro task member
    rcases ending task member with rfl | ⟨event, rfl⟩ <;> rfl
  have heeds := followed.heeds evaluated
  have whole := heeds.left sound
  rw [ended, List.append_nil] at whole
  have fault := heeds.fault
  rw [whole, sound] at fault
  exact ⟨sound, whole, fault⟩

/-- The work that a report shows was counted cue by cue. -/
theorem Followed.toNat_workPerformed
    (accepted : Sequencer.ofSequence sequence pollInterval = .ok sequencer)
    (plays : sequencer.scene.Plays past scene)
    (followed : Followed (sequencer.worker runId) first past scene run worker view)
    (fresh : first.work = WorkCounter.reset sequencer.totalWork)
    (reports : worker.Reports view report) :
    report.workPerformed.toNat = (cuesOf (deedsOf run past)).countP Cue.isCount := by
  rw [reports.workPerformed, followed.toNat_performed accepted plays fresh, countP_cuesOf]
  rfl

/-- The writes that a run attempts are the first ones of those that a dry run lists, which with the
same evaluator and whatever profile are the same ones; and a run that is finished has made all of
them, each with success. -/
theorem writes_are_foreseen (plays : sequencer.scene.Plays past scene)
    (begun : scene.workers[run]? = some worker)
    (evaluated : ∀ deed ∈ deedsOf run past, deed.IsEvaluatedBy evaluate) (profile : Profile α) :
    attemptedWrites run past <+: (sequencer.dryRun profile evaluate).2.writes.toList ∧
      ∀ report, worker.report = some report → report.state = .finished →
        (sequencer.dryRun profile evaluate).1 = .ok () ∧
        completedWrites run past = (sequencer.dryRun profile evaluate).2.writes.toList := by
  obtain ⟨runId, first, view, followed, -⟩ := plays.sound.follows begun
  have dry := sequencer.dryRun_heeds profile evaluate
  have listed : (sequencer.dryRun profile evaluate).2.writes.toList =
      (Cue.heeded evaluate
        ((Command.expandAll sequencer.steps).flatMap (WorkUnit.cues evaluate))).filterMap
          Cue.write? := dry.writes
  constructor
  · rw [attemptedWrites, ← filterMap_write?_cuesOf, listed]
    exact (followed.heeds evaluated).first.filterMap _
  · intro report reported finished
    obtain ⟨sound, whole, fault⟩ := followed.cues_of_finished evaluated reported finished
    constructor
    · rw [dry.outcome, fault]
    · rw [completedWrites, followed.life.filterMap_written? nofun sound,
        ← filterMap_write?_cuesOf, whole, listed, Cue.heeded_of_none fault]

/-- A write of an expression and a loop over two values: a run of them makes the three writes that
the dry run has listed. -/
theorem three_writes_are_foreseen :
    ∃ (sequencer : Sequencer Rat) (past : List (Turn Rat)),
      completedWrites 0 past = [("a", 3), ("b", 1), ("b", 2)] ∧
        (sequencer.dryRun {} fun _ => .ok 3).1 = .ok () ∧
        (sequencer.dryRun {} fun _ => .ok 3).2.writes.toList = completedWrites 0 past := by
  have rehearsed : Scene.rehearse (α := Rat)
      ⟨none,
        [((Descriptor.set "a" 0).withParam "value" (.string "x")).withParam "wait" (.bool false),
          (Descriptor.loopOver "b" 1 2 1 []).withParam "wait" (.bool false)]⟩ ⟨2000000⟩
      (.execute "run" :: Scene.workActs 2 [(.told 0, 6), (.evaluated (.ok 3), 0),
        (.wrote (.ok ()), 14), (.wrote (.ok ()), 5), (.wrote (.ok ()), 11), (.told 0, 3)])
      (fun past scene =>
        (deedsOf 0 past).all (fun deed => decide (deed.IsEvaluatedBy fun _ => .ok 3)) &&
        (scene.workers[0]?.bind Worker.report).any (fun report => report.state == .finished) &&
        completedWrites 0 past == [("a", 3), ("b", 1), ("b", 2)]) = true := by
    with_unfolding_all decide
  obtain ⟨sequencer, past, scene, -, plays, test⟩ := Scene.exists_of_rehearse rehearsed
  simp only [Bool.and_eq_true, List.all_eq_true, decide_eq_true_eq, Option.any_eq_true,
    Option.bind_eq_some_iff, beq_iff_eq] at test
  obtain ⟨⟨evaluated, report, ⟨worker, begun, reported⟩, finished⟩, made⟩ := test
  obtain ⟨-, whole⟩ := writes_are_foreseen plays begun evaluated {}
  obtain ⟨succeeds, same⟩ := whole report reported (RunState.eq_of_beq finished)
  exact ⟨sequencer, past, made, succeeds, same.symm⟩

/-- What stops a run of a sequence is an expression without a value or comes from outside. -/
theorem Followed.isExternal_of_failure
    (followed : Followed (sequencer.worker runId) first past scene run worker view)
    {error : ScanError} (failed : worker.failure = some error) (other : error.evalError? = none) :
    error.isExternal = true :=
  followed.life.isExternal_of_failure nofun (Worker.isNumbered_ofSteps ..) id rfl failed other

/-- How a run ends that fails over an expression, and how one that does not, if the dry run heeds a
faulty expression. -/
theorem Followed.stopped_of_fault
    (accepted : Sequencer.ofSequence sequence pollInterval = .ok sequencer)
    (plays : sequencer.scene.Plays past scene)
    (followed : Followed (sequencer.worker runId) first past scene run worker view)
    (fresh : first.work = WorkCounter.reset sequencer.totalWork)
    (evaluated : ∀ deed ∈ deedsOf run past, deed.IsEvaluatedBy evaluate) (profile : Profile α)
    {source : EvalError} (fault : Cue.firstFault? evaluate
      ((Command.expandAll sequencer.steps).flatMap (WorkUnit.cues evaluate)) = some source)
    (reported : worker.report = some report) :
    report.state ≠ .finished ∧
      ∃ stopped, report.stoppedAt = some stopped ∧
        ((stopped.error.code ∈ [ErrorCode.ioError, .timeout, .interrupted] ∧
          report.workPerformed.toNat ≤ (sequencer.dryRun profile evaluate).2.steps.size) ∨
        (report.state = .failed ∧ stopped.error = (ScanError.expression source).info ∧
          report.workPerformed.toNat = (sequencer.dryRun profile evaluate).2.steps.size)) := by
  have unfinished : report.state ≠ .finished := by
    intro finished
    obtain ⟨-, -, sound⟩ := followed.cues_of_finished evaluated reported finished
    cases fault.symm.trans sound
  obtain ⟨reports, -⟩ := followed.agenda_of_report reported
  have heeds := followed.heeds evaluated
  have logged := (sequencer.dryRun_heeds profile evaluate).size
  rw [show (Estimate.start profile).steps.size = 0 from rfl, Nat.zero_add] at logged
  cases failure : worker.failure with
  | none =>
      rw [reports.state, failure] at unfinished
      exact absurd rfl unfinished
  | some error =>
      have named := followed.stoppedAt_eq reported
      rw [failure, Option.map_some, Option.map_eq_some_iff] at named
      obtain ⟨stopped, stoppedAt, named⟩ := named
      refine ⟨unfinished, stopped, stoppedAt, ?_⟩
      rw [logged, followed.toNat_workPerformed accepted plays fresh reports, named]
      have blame := heeds.fault
      rw [failure, Option.bind_some] at blame
      cases kind : error.evalError? with
      | none =>
          left
          constructor
          · exact ScanError.code_of_isExternal (followed.isExternal_of_failure failure kind)
          · exact heeds.first.sublist.countP_le
      | some other =>
          right
          rw [kind] at blame
          have whole := Cue.eq_heeded_of_isPrefix heeds.first blame
          rw [whole, Cue.firstFault?_heeded, fault] at blame
          cases blame
          have same : error = .expression source := by
            cases error <;> cases kind
            rfl
          refine ⟨?_, by rw [same], by rw [whole]⟩
          rw [reports.state, failure, same]
          rfl

/-- A dry run and the runs with the same evaluator agree on expressions. If the dry run succeeds, a
run is never stopped by an expression. If it fails it does so with an expression without a value;
then no run is finished, and a run that ends without being stopped from outside has failed with the
same error, after as many units of work as the dry run has entries. -/
theorem preflight_is_faithful
    (accepted : Sequencer.ofSequence sequence pollInterval = .ok sequencer)
    (plays : sequencer.scene.Plays past scene) (begun : scene.workers[run]? = some worker)
    (evaluated : ∀ deed ∈ deedsOf run past, deed.IsEvaluatedBy evaluate) (profile : Profile α)
    {board : Board} (free : (sequencer.withBoard board).isTaken = false) (passId : String) :
    (worker.agenda = [] → worker.report.isSome = true) ∧
      (∀ found, ((sequencer.withBoard board).simulate profile evaluate passId).1 = .ok found →
        (∀ error, worker.failure ≠ some (.expression error)) ∧
        ∀ report stopped, worker.report = some report → report.stoppedAt = some stopped →
          stopped.error.code ∈ [ErrorCode.ioError, .timeout, .interrupted]) ∧
      ∀ error, ((sequencer.withBoard board).simulate profile evaluate passId).1 = .error error →
        ∃ source, error = .expression source ∧
          ∀ report, worker.report = some report →
            report.state ≠ .finished ∧
            ∃ stopped, report.stoppedAt = some stopped ∧
              ((stopped.error.code ∈ [ErrorCode.ioError, .timeout, .interrupted] ∧
                report.workPerformed.toNat ≤
                  (sequencer.dryRun profile evaluate).2.steps.size) ∨
              (report.state = .failed ∧ stopped.error = (ScanError.expression source).info ∧
                report.workPerformed.toNat =
                  (sequencer.dryRun profile evaluate).2.steps.size)) := by
  obtain ⟨runId, first, view, followed, fresh, -⟩ := plays.sound.follows begun
  have heeds := followed.heeds evaluated
  have dry := (sequencer.dryRun_heeds profile evaluate).outcome
  rw [Sequencer.simulate_eq free]
  refine ⟨fun ended => ?_, fun found simulated => ?_, fun error simulated => ?_⟩
  · obtain ⟨report, reported, -⟩ := followed.report_of_done ended
    simp [reported]
  · have succeeds : (sequencer.dryRun profile evaluate).1 = .ok () :=
      (Sequencer.simulationReport_eq_ok.mp simulated).1
    have sound : Cue.firstFault? evaluate (cuesOf (deedsOf run past)) = none := by
      cases fault : Cue.firstFault? evaluate
          ((Command.expandAll sequencer.steps).flatMap (WorkUnit.cues evaluate)) with
      | some source =>
          rw [succeeds, fault] at dry
          cases dry
      | none => exact Cue.firstFault?_of_isPrefix heeds.first fault
    have blameless : worker.failure.bind ScanError.evalError? = none :=
      heeds.fault.symm.trans sound
    constructor
    · intro error failed
      rw [failed] at blameless
      cases blameless
    · intro report stopped reported stoppedAt
      have named := followed.stoppedAt_eq reported
      rw [stoppedAt, Option.map_some] at named
      obtain ⟨error, failed, same⟩ := Option.map_eq_some_iff.mp named.symm
      rw [failed] at blameless
      rw [← same]
      exact ScanError.code_of_isExternal (followed.isExternal_of_failure failed blameless)
  · have fails : (sequencer.dryRun profile evaluate).1 = .error error :=
      Sequencer.simulationReport_eq_error.mp simulated
    cases fault : Cue.firstFault? evaluate
        ((Command.expandAll sequencer.steps).flatMap (WorkUnit.cues evaluate)) with
    | none =>
        rw [fails, fault] at dry
        cases dry
    | some source =>
        rw [fails, fault] at dry
        cases dry
        refine ⟨source, rfl, fun report reported => ?_⟩
        exact followed.stopped_of_fault accepted plays fresh evaluated profile fault reported

/-- A run that fails over its second step, the value of which is an expression without a value, has
counted one unit of work; the dry run fails with the same error after one entry. -/
theorem preflight_of_unknown_value_is_faithful :
    ∃ (sequencer : Sequencer Rat) (report : RunReport) (stopped : StoppedStep) (source : EvalError),
      ((sequencer.withBoard {}).simulate {} (fun text => .error ⟨text, "unknown"⟩) "pass").1 =
          .error (.expression source) ∧
        (sequencer.dryRun {} fun text => .error ⟨text, "unknown"⟩).2.steps.size = 1 ∧
        report.state = .failed ∧ report.workPerformed = 1 ∧ report.stoppedAt = some stopped ∧
        stopped.error = (ScanError.expression source).info := by
  have rehearsed : Scene.rehearse (α := Rat)
      ⟨none, [.comment "first", (Descriptor.set "a" 0).withParam "value" (.string "x")]⟩ ⟨2000000⟩
      (.execute "run" :: Scene.workActs 2
        [(.told 0, 18), (.evaluated (.error ⟨"x", "unknown"⟩), 6), (.told 0, 3)])
      (fun past scene =>
        (deedsOf 0 past).all (fun deed =>
          decide (deed.IsEvaluatedBy fun text => .error ⟨text, "unknown"⟩)) &&
        (scene.workers[0]?.bind Worker.report).any (fun report => report.workPerformed == 1 &&
          report.stoppedAt.any fun stopped => decide (stopped.error.code = .invalidInput))) =
      true := by
    with_unfolding_all decide
  obtain ⟨sequencer, past, scene, accepted, plays, test⟩ := Scene.exists_of_rehearse rehearsed
  simp only [Bool.and_eq_true, List.all_eq_true, decide_eq_true_eq, Option.any_eq_true,
    Option.bind_eq_some_iff, beq_iff_eq] at test
  obtain ⟨evaluated, report, ⟨worker, begun, reported⟩, counted, stopped, stoppedAt, code⟩ := test
  have free : (sequencer.withBoard {}).isTaken = false := rfl
  obtain ⟨-, succeeds, fails⟩ :=
    preflight_is_faithful accepted plays begun evaluated {} free "pass"
  cases simulated : ((sequencer.withBoard {}).simulate {}
      (fun text => .error ⟨text, "unknown"⟩) "pass").1 with
  | ok found =>
      have outside := (succeeds found simulated).2 report stopped reported stoppedAt
      simp [code] at outside
  | error error =>
      obtain ⟨source, rfl, ends⟩ := fails error simulated
      obtain ⟨-, other, same, outside | ⟨failed, named, entries⟩⟩ := ends report reported
      · cases same.symm.trans stoppedAt
        simp [code] at outside
      · refine ⟨sequencer, report, other, source, simulated, ?_, failed, counted, same, named⟩
        rw [← entries, counted]
        rfl

end Plays

end Scan
