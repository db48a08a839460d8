import Scan.Proofs.Performance
import Scan.Proofs.Run

/-!
# What a run comes to

What a run that nobody controls comes to in the end is its verdict: the state that it ends in, the
units of work that it has counted and the error that stopped it. The verdict follows from what is
noticed of the run, so that runs with the same score come to the same verdicts.
-/

namespace Scan

variable {α : Type}

/-! ## The error that stops a run -/

/-- Whether a task is done between the top-level steps of a run. -/
def Task.isBetween : Task α → Bool
  | .prepare _ | .stampRun | .steps .. | .clearStep | .clearActive | .report | .setState _
  | .announce _ => true
  | _ => false

/-- Whether a task is done before the close of a top-level step. -/
def Task.isWithin : Task α → Bool
  | .openStep _ | .announceStart .. | .announceFinish .. => true
  | task => task.isNested

theorem Task.isWithin_of_isNested {task : Task α} (nested : task.isNested = true) :
    task.isWithin = true := by
  cases task <;> first | rfl | exact nested

theorem Task.isBetween_of_fails {task : Task α} {board : Board} {reply : Option (Reply α)}
    {error : ScanError} (fails : task.Fails board reply error) : task.isBetween = false := by
  cases fails <;> rfl

namespace Worker

/-- How a worker accounts for its failure: the close of a step is still to come, or the step that
failed, if there is one, has been noted. -/
inductive Noted (worker : Worker α) : Prop where
  | within (inner : List (Task α)) {rest : List (Task α)} {step : Nat} {description : String}
      (agenda : worker.agenda = inner ++ .closeStep step description :: rest)
      (inside : ∀ task ∈ inner, task.isWithin = true)
      (outside : ∀ task ∈ rest, task.isBetween = true) (ongoing : worker.stopped = none)
  | between (outside : ∀ task ∈ worker.agenda, task.isBetween = true)
      (noted : worker.stopped.map (·.error) = worker.failure.map (·.info))

theorem noted_ofSteps (steps : List (Command α)) (pollInterval : Duration) (runId : String)
    (name : Option String) (totalWork : UInt64) :
    (ofSteps steps pollInterval runId name totalWork).Noted := by
  apply Noted.between _ rfl
  simp [ofSteps, Task.isBetween]

theorem stopped_noting {worker : Worker α} {board : Board} {task : Task α}
    {reply : Option (Reply α)} (other : ∀ step description, task ≠ .closeStep step description) :
    (worker.noting board task reply).stopped = worker.stopped := by
  unfold noting
  split
  · exact absurd rfl (other _ _)
  all_goals rfl

theorem totalWork_noting (worker : Worker α) (board : Board) (task : Task α)
    (reply : Option (Reply α)) :
    (worker.noting board task reply).totalWork = worker.totalWork := by
  unfold noting closing
  split <;> (try split) <;> rfl

variable [Scalar α] {board after : Board} {worker next : Worker α} {task : Task α}
variable {rest more : List (Task α)} {reply : Option (Reply α)}

/-- What a step does before its close leads to nothing else. -/
theorem isWithin_of_spawns (inside : task.isWithin = true)
    (spawns : task.Spawns board worker reply after more) :
    ∀ next ∈ more, next.isWithin = true := by
  intro next member
  cases nested : task.isNested
  case true =>
    exact Task.isWithin_of_isNested (Task.isNested_of_spawns nested spawns next member)
  cases spawns with
  | announceStart =>
      simp only [List.mem_cons, List.not_mem_nil, or_false] at member
      rcases member with rfl | rfl <;> rfl
  | openStep | announceFinish => cases member
  | _ => first
    | exact absurd nested.symm Bool.false_ne_true
    | exact absurd inside Bool.false_ne_true

/-- What is done between the steps leads to nothing else, except for the next step. -/
theorem isBetween_of_spawns (outside : task.isBetween = true)
    (other : ∀ step remaining, task ≠ .steps step remaining)
    (spawns : task.Spawns board worker reply after more) :
    ∀ next ∈ more, next.isBetween = true := by
  intro next member
  cases spawns with
  | steps step remaining => exact absurd rfl (other step remaining)
  | prepare | report =>
      simp only [List.mem_cons, List.not_mem_nil, or_false] at member
      rcases member with rfl | rfl | rfl <;> rfl
  | _ => first
    | exact absurd outside Bool.false_ne_true
    | cases member

/-- A failure that is still to be noted within a step is noted at its close. -/
theorem Outcome.noted_of_within {inner behind : List (Task α)} {step : Nat} {description : String}
    (shape : task :: rest = inner ++ .closeStep step description :: behind)
    (inside : ∀ task ∈ inner, task.isWithin = true)
    (outside : ∀ task ∈ behind, task.isBetween = true) (ongoing : worker.stopped = none)
    (outcome : Outcome board worker task rest reply after next) : next.Noted := by
  cases inner with
  | nil =>
      obtain ⟨rfl, rfl⟩ := List.cons.inj shape
      cases outcome with
      | sound sound spawns =>
          cases spawns with
          | closeStep =>
              apply Noted.between outside
              simp [noting, closing, sound, ongoing]
      | broken _ fails => cases fails
      | cleaning failed _ spawns =>
          cases spawns with
          | closeStep =>
              obtain ⟨error, failed⟩ := Option.isSome_iff_exists.mp failed
              apply Noted.between
              · intro task member
                exact outside task ((unwind_suffix _).mem member)
              · simp [noting, closing, failed]
  | cons first inner =>
      rw [List.cons_append] at shape
      obtain ⟨rfl, rfl⟩ := List.cons.inj shape
      have own : task.isWithin = true := inside task List.mem_cons_self
      have others : ∀ task ∈ inner, task.isWithin = true :=
        fun next member => inside next (List.mem_cons_of_mem _ member)
      have goesOn : ∀ {more}, task.Spawns board worker reply after more →
          ∀ next ∈ more ++ inner, next.isWithin = true := by
        intro more spawns next member
        rcases List.mem_append.mp member with member | member
        · exact isWithin_of_spawns own spawns next member
        · exact others next member
      have kept : (worker.noting board task reply).stopped = none := by
        rw [stopped_noting, ongoing]
        rintro step description rfl
        exact Bool.false_ne_true own
      cases outcome with
      | sound _ spawns =>
          exact .within (_ ++ inner) (List.append_assoc ..).symm (goesOn spawns) outside kept
      | broken =>
          exact .within (unwind inner) (unwind_append_cons rfl ..)
            (fun task member => others task ((unwind_suffix _).mem member)) outside ongoing
      | @cleaning _ more _ _ spawns =>
          have shape : unwind (more ++ (inner ++ .closeStep step description :: behind)) =
              unwind (more ++ inner) ++ .closeStep step description :: behind := by
            rw [← List.append_assoc, unwind_append_cons rfl]
          exact .within (unwind (more ++ inner)) shape
            (fun task member => goesOn spawns task ((unwind_suffix _).mem member)) outside kept

/-- Between the steps a worker has noted the step that failed. -/
theorem Outcome.noted_of_between (outside : ∀ next ∈ task :: rest, next.isBetween = true)
    (noted : worker.stopped.map (·.error) = worker.failure.map (·.info))
    (outcome : Outcome board worker task rest reply after next) : next.Noted := by
  have own : task.isBetween = true := outside task List.mem_cons_self
  have others : ∀ next ∈ rest, next.isBetween = true :=
    fun next member => outside next (List.mem_cons_of_mem _ member)
  have kept : (worker.noting board task reply).stopped = worker.stopped := by
    apply stopped_noting
    rintro step description rfl
    exact Bool.false_ne_true own
  have account : ∀ agenda,
      ((worker.noting board task reply).withAgenda agenda).stopped.map (·.error) =
        ((worker.noting board task reply).withAgenda agenda).failure.map (·.info) := by
    intro agenda
    simp [kept, noted]
  have goesOn : (∀ step remaining, task ≠ .steps step remaining) → ∀ {more},
      task.Spawns board worker reply after more →
        ∀ next ∈ more ++ rest, next.isBetween = true := by
    intro other more spawns next member
    rcases List.mem_append.mp member with member | member
    · exact isBetween_of_spawns own other spawns next member
    · exact others next member
  cases outcome with
  | sound sound spawns =>
      by_cases step : ∃ step remaining, task = .steps step remaining
      · obtain ⟨step, remaining, rfl⟩ := step
        cases spawns with
        | steps =>
            cases remaining with
            | nil => exact .between others (account _)
            | cons pair remaining =>
                obtain ⟨id, command⟩ := pair
                have none : worker.stopped = none := by simpa [sound] using noted
                refine .within [.safePoint, .openStep step, .announceStart step id command] rfl
                  (by simp [Task.isWithin, Task.isNested, Task.isErrand]) ?_ (kept.trans none)
                intro next member
                rcases List.mem_cons.mp member with rfl | member
                · rfl
                · exact others next member
      · exact .between (goesOn (fun _ _ same => step ⟨_, _, same⟩) spawns) (account _)
  | broken _ fails => exact absurd own (by simp [Task.isBetween_of_fails fails])
  | cleaning _ cleans spawns =>
      have other : ∀ step remaining, task ≠ .steps step remaining := by
        rintro step remaining rfl
        exact Bool.false_ne_true cleans
      apply Noted.between _ (account _)
      intro next member
      exact goesOn other spawns next ((unwind_suffix _).mem member)

end Worker

/-- The worker of a whole run accounts for its failure at any time. -/
theorem Life.noted [Scalar α] {others : Board → Board → Prop} {board now : Board}
    {worker current : Worker α} {past : List (Deed α)}
    (life : Life others board worker past now current) (steady : worker.IsSteady)
    (start : worker.Noted) : current.Noted := by
  induction life with
  | begin => exact start
  | wait _ _ ih => exact ih
  | work life agenda stepped ih =>
      have outcome := Worker.outcome_of_step? (life.isSteady steady) agenda stepped
      cases ih with
      | within _ shape inside outside ongoing =>
          exact outcome.noted_of_within (agenda.symm.trans shape) inside outside ongoing
      | between outside noted => exact outcome.noted_of_between (agenda ▸ outside) noted

/-! ## The end of a run -/

section Lives

variable [Scalar α] {board now : Board} {worker current : Worker α} {past : List (Deed α)}

/-- A worker with nothing left to do has set the state that its report says. -/
theorem Life.run_of_not_isOpen (life : Life Board.Bystander board worker past now current)
    (steady : worker.IsSteady) (start : Worker.Stage board worker) (working : worker.report = none)
    {report : RunReport} (reported : current.report = some report) (ended : ¬ current.IsOpen) :
    now.run = report.state := by
  induction life with
  | begin => simp [working] at reported
  | wait _ other ih => exact other.run.trans (ih reported ended)
  | @work past now _ current next task rest reply life agenda stepped ih =>
      have outcome := Worker.outcome_of_step? (life.isSteady steady) agenda stepped
      have stage := life.stage steady Board.Bystander.work start
      cases stage with
      | working front work inner unreported =>
          have isOpen : current.IsOpen := ⟨.report, by simp [work], rfl⟩
          refine absurd (outcome.isOpen_of_ne agenda isOpen ?_) ended
          rintro state rfl
          rw [agenda] at work
          cases front with
          | nil => cases (List.cons.inj work).1
          | cons first front =>
              obtain ⟨rfl, -⟩ := List.cons.inj work
              exact Bool.false_ne_true (inner _ List.mem_cons_self)
      | reporting own work reports =>
          obtain ⟨rfl, rfl⟩ := List.cons.inj (agenda.symm.trans work)
          cases outcome with
          | sound _ spawns | cleaning _ _ spawns =>
              cases spawns with
              | setState =>
                  cases reports.kept.symm.trans reported
                  rfl
          | broken _ fails => cases fails
      | closed own work reports =>
          obtain ⟨event, rfl⟩ :=
            Worker.exists_event_of_suffix work (agenda ▸ List.mem_cons_self)
          cases outcome with
          | sound _ spawns | cleaning _ _ spawns =>
              cases spawns with
              | announce => exact ih reported (Worker.not_isOpen_of_suffix work)
          | broken _ fails => cases fails

/-- The work that a worker was told of never changes. -/
theorem Life.totalWork_eq {others : Board → Board → Prop}
    (life : Life others board worker past now current) (steady : worker.IsSteady) :
    current.totalWork = worker.totalWork := by
  induction life with
  | begin => rfl
  | wait _ _ ih => exact ih
  | work life agenda stepped ih =>
      rw [← ih]
      cases Worker.outcome_of_step? (life.isSteady steady) agenda stepped with
      | sound | cleaning => exact Worker.totalWork_noting ..
      | broken => rfl

end Lives

/-! ## Verdicts -/

/-- Whether what is noticed is that a unit of work was counted. -/
def Notice.isCount : Notice α → Bool
  | .count => true
  | .call .. => false

/-- What a run comes to in the end. -/
structure Verdict where
  state : RunState
  performed : UInt64
  total : UInt64
  error : Option ErrorInfo

/-- The verdict on a run of a given amount of work from what was noticed of it and the error that it
failed with. -/
def Verdict.of (failure : Option ScanError) (total : UInt64) (trace : List (Notice α)) :
    Verdict where
  state := Worker.finalState failure
  performed := UInt64.ofNat (trace.countP Notice.isCount)
  total := total
  error := failure.map (·.info)

/-- The verdict that a report gives. -/
def Verdict.ofReport (report : RunReport) : Verdict where
  state := report.state
  performed := report.workPerformed
  total := report.totalWork
  error := report.stoppedAt.map (·.error)

section Lives

variable [Scalar α] {board now after : Board} {worker current next : Worker α}
variable {past : List (Deed α)} {task : Task α} {rest : List (Task α)} {reply : Option (Reply α)}

/-- The units that a step counts are noticed. -/
theorem Worker.countP_notice (agenda : worker.agenda = task :: rest)
    (stepped : worker.step? board reply = some (after, next)) (pollInterval : Duration) :
    (noticed pollInterval [⟨task, reply⟩]).countP Notice.isCount = task.counts.length := by
  obtain ⟨_, _, same, result⟩ := step?_cases stepped
  obtain ⟨rfl, rfl⟩ := List.cons.inj (agenda.symm.trans same)
  rcases result with ⟨more, spawns, -⟩ | ⟨error, fails, -⟩
  · cases spawns <;> rfl
  · cases fails <;> rfl

/-- Every unit that was counted was noticed. -/
theorem Life.countP_noticed {others : Board → Board → Prop}
    (life : Life others board worker past now current) (pollInterval : Duration) :
    (noticed pollInterval past).countP Notice.isCount = ((Ledger.units α).done past).length := by
  induction life with
  | begin => rfl
  | wait _ _ ih => exact ih
  | work _ agenda stepped ih =>
      rw [noticed_append, List.countP_append, ih, Ledger.done_append, Ledger.done_singleton,
        List.length_append, Worker.countP_notice agenda stepped]
      rfl

variable {steps : List (Command α)} {pollInterval : Duration} {runId : String}
variable {name : Option String} {totalWork : UInt64}

/-- What a run that nobody controls comes to follows from what was noticed of it. -/
theorem Life.verdict_eq
    (life : Life Board.Bystander board (.ofSteps steps pollInterval runId name totalWork) past now
      current)
    (fresh : board.work = WorkCounter.reset totalWork) (ended : current.agenda = []) :
    ∃ report, current.report = some report ∧ current.score = .closed current.failure ∧
      Verdict.ofReport report = .of current.failure totalWork (noticed pollInterval past) ∧
      now.run = report.state := by
  have stage : Worker.Stage now current :=
    life.stage nofun Board.Bystander.work (Worker.stage_ofSteps board ..)
  have closed : ¬ current.IsOpen := by
    rintro ⟨task, member, -⟩
    simp [ended] at member
  obtain ⟨report, reports, -⟩ := stage.exists_report closed
  have state : now.run = report.state :=
    life.run_of_not_isOpen nofun (Worker.stage_ofSteps board ..) rfl reports.kept closed
  have counted := life.performed_eq nofun Board.Bystander.work
  rw [fresh, WorkCounter.reset, UInt64.zero_add, ← life.countP_noticed pollInterval] at counted
  have noted : current.stopped.map (·.error) = current.failure.map (·.info) := by
    cases life.noted nofun (Worker.noted_ofSteps ..) with
    | within _ agenda => simp [ended] at agenda
    | between _ noted => exact noted
  refine ⟨report, reports.kept, Worker.score_of_report reports.kept, ?_, state⟩
  rw [Verdict.ofReport, Verdict.of, reports.state, reports.workPerformed, counted,
    reports.totalWork, life.totalWork_eq nofun, reports.stoppedAt, noted]
  rfl

end Lives

/-! ## Runs of a sequencer -/

/-- A board on which nothing is in progress and nobody has asked to skip anything. -/
structure Board.IsAtRest (board : Board) : Prop where
  inactive : board.run.isActive = false
  idle : board.simulation ≠ .simulating
  unskipped : ∀ id, (board.monitor id).IsUnskipped

/-- The board of a sequencer that has just been made is at rest. -/
theorem Board.isAtRest_default : ({} : Board).IsAtRest where
  inactive := rfl
  idle := nofun
  unskipped := fun _ => .of_isNew (isNew_monitor_of_ge _ (Nat.zero_le _))

/-- What can be noticed of a run that nobody controls, up to some moment. -/
def Sequencer.Sounds [Scalar α] (sequencer : Sequencer α) (runId : String)
    (trace : List (Notice α)) : Prop :=
  ∃ claimed worker past now current, sequencer.beginRun runId = .ok (claimed, worker) ∧
    Life Board.Bystander claimed.board worker past now current ∧
    noticed sequencer.pollInterval past = trace

/-- What can be noticed of a run that nobody controls, from its beginning to its end, and what it
comes to by its report and by the state that it leaves behind. -/
def Sequencer.Performs [Scalar α] (sequencer : Sequencer α) (runId : String)
    (trace : List (Notice α)) (verdict : Verdict) : Prop :=
  ∃ claimed worker past now current report, sequencer.beginRun runId = .ok (claimed, worker) ∧
    Life Board.Bystander claimed.board worker past now current ∧
    noticed sequencer.pollInterval past = trace ∧ current.agenda = [] ∧
    current.report = some report ∧ verdict = .ofReport report ∧ now.run = verdict.state

/-- The score of a run of some steps. -/
def Score.ofSteps [Scalar α] (steps : List (Command α)) : Score α :=
  .playing (.stamp :: Beat.ofUnits (Command.expandAll steps))

section Sequencers

variable [Scalar α] {sequencer : Sequencer α} {runId : String} {trace : List (Notice α)}

theorem Worker.score_ofSteps (steps : List (Command α)) (pollInterval : Duration)
    (runId : String) (name : Option String) (totalWork : UInt64) :
    (ofSteps steps pollInterval runId name totalWork).score = .ofSteps steps := by
  simp [score, ofSteps, Task.beats, Score.ofSteps]

omit [Scalar α] in
/-- A sequencer whose board is at rest is not taken. -/
theorem Sequencer.isTaken_of_isAtRest (sequencer : Sequencer α)
    (rest : sequencer.board.IsAtRest) : sequencer.isTaken = false := by
  have idle : (sequencer.board.simulation == .simulating) = false := by
    cases same : sequencer.board.simulation with
    | simulating => exact absurd same rest.idle
    | idle | simulated => rfl
  rw [isTaken, rest.inactive, idle]
  rfl

omit [Scalar α] in
/-- A board at rest can be claimed for a run. -/
theorem Sequencer.exists_beginRun (rest : sequencer.board.IsAtRest) (runId : String) :
    ∃ claimed, sequencer.beginRun runId = .ok (claimed, sequencer.worker runId) ∧
      claimed.board.IsUndisturbed ∧
      claimed.board.work = WorkCounter.reset sequencer.totalWork := by
  rw [beginRun, sequencer.isTaken_of_isAtRest rest]
  exact ⟨_, rfl, ⟨rfl, rest.unskipped⟩, rfl⟩

/-- What can be noticed of a run that nobody controls is what its score plays. -/
theorem Sequencer.sounds_iff (rest : sequencer.board.IsAtRest) :
    sequencer.Sounds runId trace ↔
      ∃ score, (Score.ofSteps sequencer.steps).Plays sequencer.pollInterval trace score := by
  obtain ⟨claimed, begun, undisturbed, -⟩ := sequencer.exists_beginRun rest runId
  rw [← Worker.score_ofSteps sequencer.steps sequencer.pollInterval runId
    sequencer.sequence.name sequencer.totalWork]
  constructor
  · rintro ⟨own, worker, past, now, current, same, life, rfl⟩
    cases begun.symm.trans same
    exact ⟨_, life.score_plays undisturbed⟩
  · rintro ⟨score, plays⟩
    obtain ⟨past, now, current, life, heard, -⟩ := plays.exists_life undisturbed
    exact ⟨claimed, _, past, now, current, begun, life, heard⟩

/-- What a run that nobody controls does and comes to is what its score plays to the end. -/
theorem Sequencer.performs_iff (rest : sequencer.board.IsAtRest) {verdict : Verdict} :
    sequencer.Performs runId trace verdict ↔
      ∃ failure, (Score.ofSteps sequencer.steps).Plays sequencer.pollInterval trace
        (.closed failure) ∧ verdict = .of failure sequencer.totalWork trace := by
  obtain ⟨claimed, begun, undisturbed, fresh⟩ := sequencer.exists_beginRun rest runId
  rw [← Worker.score_ofSteps sequencer.steps sequencer.pollInterval runId
    sequencer.sequence.name sequencer.totalWork]
  constructor
  · rintro ⟨own, worker, past, now, current, report, same, life, rfl, ended, reported, rfl, -⟩
    cases begun.symm.trans same
    obtain ⟨known, kept, score, verdict, -⟩ := life.verdict_eq fresh ended
    cases kept.symm.trans reported
    exact ⟨current.failure, score ▸ life.score_plays undisturbed, verdict⟩
  · rintro ⟨failure, plays, rfl⟩
    obtain ⟨past, now, current, life, heard, reached⟩ := plays.exists_life undisturbed
    obtain ⟨more, later, settled, whole, silent, closed, ended⟩ :=
      life.exists_end undisturbed reached
    obtain ⟨report, reported, score, verdict, state⟩ := whole.verdict_eq fresh ended
    have same : settled.failure = failure := Score.closed.inj (score.symm.trans closed)
    have trace : noticed sequencer.pollInterval (past ++ more) =
        noticed sequencer.pollInterval past := by
      rw [noticed_append, silent, List.append_nil]
    rw [trace, heard, same] at verdict
    exact ⟨claimed, _, past ++ more, later, settled, report, begun, whole, trace.trans heard, ended,
      reported, verdict.symm, state.trans (congrArg Verdict.state verdict)⟩

end Sequencers

end Scan
