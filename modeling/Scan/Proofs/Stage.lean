import Scan.Proofs.Life

/-!
# Stages of a run

The worker of a whole run works until it writes its report; then it sets the state of the run, and
once that is done there are only events left to publish. The report says what the worker has noted,
and it goes on being true.
-/

namespace Scan

variable {α : Type}

/-- What others may do to the board while a run is in progress. Requests come and go, but an abort
is not taken back; latches are released and events published; the run stays active if it is, and
what the worker keeps on the board stays as it is. -/
structure Board.Foreign (board after : Board) : Prop where
  run : after.run = board.run ∨ board.run.isActive = true ∧ after.run.isActive = true
  aborted : board.control.aborted = true → after.control.aborted = true
  work : after.work = board.work
  size : after.monitors.size = board.monitors.size
  status : ∀ id, (after.monitor id).status = (board.monitor id).status

/-- Whether a task belongs to the work of a run, and not to its end. -/
def Task.isInner : Task α → Bool
  | .report | .setState _ => false
  | _ => true

namespace Worker

/-- A report that says what the worker has noted and what the board counts. -/
structure Reports (worker : Worker α) (board : Board) (report : RunReport) : Prop where
  kept : worker.report = some report
  state : report.state = finalState worker.failure
  stepsCompleted : report.stepsCompleted = worker.completed
  stoppedAt : report.stoppedAt = worker.stopped
  totalWork : report.totalWork = worker.totalWork
  workPerformed : report.workPerformed = board.work.performed

/-- How far the worker of a whole run has come. -/
inductive Stage (board : Board) (worker : Worker α) : Prop where
  | working (front : List (Task α)) (agenda : worker.agenda = front ++ [.report])
      (inner : ∀ task ∈ front, task.isInner = true) (unreported : worker.report = none)
  | reporting (report : RunReport)
      (agenda : worker.agenda = [.setState report.state, .announce (.stateChanged report.state),
        .announce (.finished report)])
      (reports : worker.Reports board report)
  | closed (report : RunReport)
      (agenda : worker.agenda <:+
        [.announce (.stateChanged report.state), .announce (.finished report)])
      (reports : worker.Reports board report)

/-- All that is left to do for a worker that has set the state of its run is to publish events. -/
theorem exists_event_of_suffix {agenda : List (Task α)} {first second : Event}
    (suffix : agenda <:+ [.announce first, .announce second]) {task : Task α}
    (member : task ∈ agenda) : ∃ event, task = .announce event := by
  have announces := suffix.mem member
  simp only [List.mem_cons, List.not_mem_nil, or_false] at announces
  rcases announces with rfl | rfl <;> exact ⟨_, rfl⟩

/-- The worker of a whole run begins by working. -/
theorem stage_ofSteps (board : Board) (steps : List (Command α)) (pollInterval : Duration)
    (runId : String) (name : Option String) (totalWork : UInt64) :
    Stage board (ofSteps steps pollInterval runId name totalWork) := by
  refine .working [.announce (.stateChanged .running), .prepare steps, .clearStep, .clearActive]
    rfl ?_ rfl
  simp [Task.isInner]

/-- A worker sets the state that its report says, and then it has the events left. -/
theorem Stage.exists_report_of_setState {board : Board} {worker : Worker α} {state : RunState}
    {rest : List (Task α)} (stage : Stage board worker)
    (agenda : worker.agenda = .setState state :: rest) :
    ∃ report, worker.Reports board report ∧ state = report.state ∧
      rest = [.announce (.stateChanged report.state), .announce (.finished report)] := by
  cases stage with
  | working front work inner =>
      cases front with
      | nil => simp [agenda] at work
      | cons first front =>
          obtain ⟨rfl, -⟩ := List.cons.inj (agenda.symm.trans work)
          exact absurd (inner _ List.mem_cons_self).symm (by simp [Task.isInner])
  | reporting report work reports =>
      cases agenda.symm.trans work
      exact ⟨report, reports, rfl, rfl⟩
  | closed report work =>
      obtain ⟨_, other⟩ := exists_event_of_suffix (agenda ▸ work) List.mem_cons_self
      cases other

/-- The report is the last thing that a worker has to do before it knows how the run ends. -/
theorem Stage.eq_nil_of_report {board : Board} {worker : Worker α} {rest : List (Task α)}
    (stage : Stage board worker) (agenda : worker.agenda = .report :: rest) : rest = [] := by
  cases stage with
  | working front work inner =>
      cases front with
      | nil => exact (List.cons.inj (agenda.symm.trans work)).2
      | cons first front =>
          obtain ⟨rfl, -⟩ := List.cons.inj (agenda.symm.trans work)
          exact absurd (inner _ List.mem_cons_self).symm (by simp [Task.isInner])
  | reporting report work => cases agenda.symm.trans work
  | closed report work =>
      obtain ⟨_, other⟩ := exists_event_of_suffix (agenda ▸ work) List.mem_cons_self
      cases other

/-! ## Inner tasks spawn inner tasks -/

theorem isInner_of_isNested {task : Task α} (nested : task.isNested = true) :
    task.isInner = true := by
  cases task <;> first | rfl | exact absurd nested Bool.false_ne_true

theorem isInner_of_spawns [Scalar α] {board after : Board} {worker : Worker α} {task : Task α}
    {reply : Option (Reply α)} {more : List (Task α)} (inner : task.isInner = true)
    (spawns : task.Spawns board worker reply after more) : ∀ next ∈ more, next.isInner = true := by
  intro next member
  cases nested : task.isNested
  case true => exact isInner_of_isNested (Task.isNested_of_spawns nested spawns next member)
  cases spawns with
  | steps step remaining =>
      cases remaining with
      | nil => cases member
      | cons =>
          simp only [stepTasks, List.mem_cons, List.not_mem_nil, or_false] at member
          rcases member with rfl | rfl | rfl | rfl | rfl <;> rfl
  | announceStart | prepare =>
      simp only [List.mem_cons, List.not_mem_nil, or_false] at member
      rcases member with rfl | rfl <;> rfl
  | _ => first
    | exact absurd nested.symm Bool.false_ne_true
    | exact absurd inner Bool.false_ne_true
    | cases member

/-! ## The stages in order -/

/-- Work goes on with inner tasks, whether or not it is unwound. -/
theorem Stage.working_of_inner {board : Board} {worker : Worker α} {more front : List (Task α)}
    (inner : ∀ task ∈ more ++ front, task.isInner = true) (unreported : worker.report = none) :
    Stage board (worker.withAgenda (more ++ (front ++ [.report]))) ∧
      Stage board (worker.withAgenda (unwind (more ++ (front ++ [.report])))) := by
  rw [← List.append_assoc]
  constructor
  · exact .working (more ++ front) rfl inner unreported
  · refine .working (unwind (more ++ front)) (unwind_append_cons rfl _ []) ?_ unreported
    intro task member
    exact inner task ((unwind_suffix _).mem member)

theorem report_noting_of_isInner {worker : Worker α} {board : Board} {task : Task α}
    {reply : Option (Reply α)} (inner : task.isInner = true) :
    (worker.noting board task reply).report = worker.report := by
  unfold noting
  split
  · unfold closing
    split <;> rfl
  · rfl
  · cases inner
  · rfl

/-- A report goes on being true as long as nothing more is counted. -/
theorem Reports.withAgenda {worker : Worker α} {board after : Board} {report : RunReport}
    {agenda : List (Task α)} (reports : worker.Reports board report)
    (work : after.work = board.work) : (worker.withAgenda agenda).Reports after report := by
  obtain ⟨kept, state, stepsCompleted, stoppedAt, totalWork, workPerformed⟩ := reports
  exact ⟨kept, state, stepsCompleted, stoppedAt, totalWork, workPerformed.trans (by rw [work])⟩

section Steps

variable [Scalar α] {board after : Board} {worker next : Worker α} {task : Task α}
variable {rest : List (Task α)} {reply : Option (Reply α)}

/-- Inner work leads to more inner work. -/
theorem Outcome.stage_of_inner {front : List (Task α)}
    (outcome : Outcome board worker task (front ++ [.report]) reply after next)
    (innerTask : task.isInner = true) (innerFront : ∀ task ∈ front, task.isInner = true)
    (unreported : worker.report = none) : Stage after next := by
  have goesOn : ∀ {more : List (Task α)}, task.Spawns board worker reply after more →
      ∀ task ∈ more ++ front, task.isInner = true := by
    intro more spawns next member
    rcases List.mem_append.mp member with member | member
    · exact isInner_of_spawns innerTask spawns next member
    · exact innerFront next member
  have unreportedNext : (worker.noting board task reply).report = none :=
    (report_noting_of_isInner innerTask).trans unreported
  cases outcome with
  | sound _ spawns => exact (Stage.working_of_inner (goesOn spawns) unreportedNext).1
  | cleaning _ _ spawns => exact (Stage.working_of_inner (goesOn spawns) unreportedNext).2
  | broken =>
      refine .working (unwind front) (unwind_append_cons rfl front []) ?_ unreported
      intro task member
      exact innerFront task ((unwind_suffix _).mem member)

/-- The report is followed by what it is for. -/
theorem Outcome.stage_of_report (outcome : Outcome board worker .report [] reply after next) :
    Stage after next := by
  cases outcome with
  | sound _ spawns | cleaning _ _ spawns =>
      cases spawns with
      | report now =>
          exact .reporting (worker.reportAt board now) rfl ⟨rfl, rfl, rfl, rfl, rfl, rfl⟩
  | broken _ fails => cases fails

/-- Once the state of the run is set there are only events left. -/
theorem Outcome.stage_of_setState {report : RunReport}
    (outcome : Outcome board worker (.setState report.state)
      [.announce (.stateChanged report.state), .announce (.finished report)] reply after next)
    (reports : worker.Reports board report) : Stage after next := by
  cases outcome with
  | sound _ spawns | cleaning _ _ spawns =>
      cases spawns with
      | setState => exact .closed report List.suffix_rfl (reports.withAgenda rfl)
  | broken _ fails => cases fails

/-- The last events are published one after another. -/
theorem Outcome.stage_of_announce {report : RunReport} {event : Event}
    (outcome : Outcome board worker (.announce event) rest reply after next)
    (shorter : rest <:+ [.announce (.stateChanged report.state), .announce (.finished report)])
    (reports : worker.Reports board report) : Stage after next := by
  cases outcome with
  | sound _ spawns =>
      cases spawns with
      | announce => exact .closed report shorter (reports.withAgenda rfl)
  | broken _ fails => cases fails
  | cleaning _ _ spawns =>
      cases spawns with
      | announce => exact .closed report ((unwind_suffix _).trans shorter) (reports.withAgenda rfl)

/-- A step leads from a stage to the same or the next one. -/
theorem Outcome.stage (agenda : worker.agenda = task :: rest)
    (outcome : Outcome board worker task rest reply after next) (stage : Stage board worker) :
    Stage after next := by
  cases stage with
  | working front work inner unreported =>
      cases front with
      | nil =>
          obtain ⟨rfl, rfl⟩ := List.cons.inj (agenda.symm.trans work)
          exact outcome.stage_of_report
      | cons first front =>
          obtain ⟨rfl, rfl⟩ := List.cons.inj (agenda.symm.trans work)
          apply outcome.stage_of_inner (inner task List.mem_cons_self) _ unreported
          intro task member
          exact inner task (List.mem_cons_of_mem _ member)
  | reporting report work reports =>
      obtain ⟨rfl, rfl⟩ := List.cons.inj (agenda.symm.trans work)
      exact outcome.stage_of_setState reports
  | closed report work reports =>
      rw [agenda] at work
      have shorter : rest <:+ [.announce (.stateChanged report.state),
          .announce (.finished report)] := (List.suffix_cons task rest).trans work
      obtain ⟨event, rfl⟩ := exists_event_of_suffix work List.mem_cons_self
      exact outcome.stage_of_announce shorter reports

end Steps

/-- What a stage says depends on the board only by the work that it counts. -/
theorem Stage.of_work_eq {board after : Board} {worker : Worker α}
    (work : after.work = board.work) (stage : Stage board worker) : Stage after worker := by
  cases stage with
  | working front agenda inner unreported => exact .working front agenda inner unreported
  | reporting report agenda reports => exact .reporting report agenda (reports.withAgenda work)
  | closed report agenda reports => exact .closed report agenda (reports.withAgenda work)

end Worker

/-- The worker of a whole run is at one of the stages at any time. -/
theorem Life.stage [Scalar α] {others : Board → Board → Prop} {board now : Board}
    {worker current : Worker α} {past : List (Deed α)}
    (life : Life others board worker past now current) (steady : worker.IsSteady)
    (keeps : ∀ {now after : Board}, others now after → after.work = now.work)
    (start : Worker.Stage board worker) : Worker.Stage now current := by
  induction life with
  | begin => exact start
  | wait _ other ih => exact ih.of_work_eq (keeps other)
  | work life agenda stepped ih =>
      exact (Worker.outcome_of_step? (life.isSteady steady) agenda stepped).stage agenda ih

end Scan
