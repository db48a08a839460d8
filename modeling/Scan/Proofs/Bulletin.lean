import Scan.Proofs.Succession

/-!
# What a daemon says of its status

A request for the status first looks at the progress of the job and then, when it has given the job
up, at the last report. A run says that it is over before its worker has stored the report. So the
report is that of the run whose progress is shown, unless the worker has still to store it, or a
later run has stored its own meanwhile.
-/

namespace Scan

/-! ## What a request has found out -/

/-- The state of the run that a call has seen and is going to show. -/
def Call.seen? : Call → Option RunState
  | .progressPerformed _ state | .progressTotal _ state _ | .progressShare _ state _ _
  | .progressInnermost _ state _ _ | .progressStatus _ state _ _ _ => some state
  | _ => none

/-- The number of the run and the progress that a request is going to show. -/
def Errand.shown? (errand : Errand) : Option (Nat × Progress) :=
  match errand.stage with
  | .atReport shown => shown
  | _ => none

theorem Errand.eq_of_shown? {errand : Errand} {run : Nat} {progress : Progress}
    (shows : errand.shown? = some (run, progress)) :
    errand = ⟨errand.request, .atReport (some (run, progress))⟩ := by
  unfold Errand.shown? at shows
  split at shows
  · rename_i shown stage
    subst shows
    rw [← stage]
  · cases shows

namespace Call

variable {totalWork : UInt64} {now : Instant} {board : Board} {call : Call}

/-- A call goes on with the state that it has seen, or sees it just now. -/
theorem seen?_of_more {next : Call} {state : RunState}
    (steps : (call.step totalWork now board).2 = .more next) (seen : next.seen? = some state) :
    call.seen? = some state ∨ state = board.run := by
  cases call <;> simp only [step] at steps <;> (try split at steps) <;> cases steps <;>
    simp_all [seen?]

/-- A call shows the state that it has seen. -/
theorem seen?_of_progress {found : Progress}
    (steps : (call.step totalWork now board).2 = .result (.progress found)) :
    call.seen? = some found.state := by
  cases call <;> simp only [step] at steps <;> (try split at steps) <;> cases steps <;> rfl

end Call

namespace House

variable {house next : House} {move : Move} {past : List Happening}

/-- A run that has come to an end in a state. -/
def HasEnded (house : House) (run : Nat) (state : RunState) : Prop :=
  ∃ job, house.runs[run]? = some job ∧ job.sequencer.state = state

/-- What a request has found out of a run that is over. -/
def Holds (house : House) : Errand.Stage → Prop
  | .atJob (.call call) =>
      ∀ state, call.seen? = some state → state.isTerminal = true →
        ∃ run, house.slot = some run ∧ house.HasEnded run state
  | .atReport (some (run, progress)) =>
      progress.state.isTerminal = true → house.HasEnded run progress.state
  | _ => True

/-- A run that is over in a state stays so. -/
theorem HasEnded.turn {run : Nat} {state : RunState} (ended : house.HasEnded run state)
    (terminal : state.isTerminal = true) (peopled : house.Peopled past)
    (change : house.Change move next) : next.HasEnded run state := by
  obtain ⟨job, found, rfl⟩ := ended
  obtain ⟨after, found', goes⟩ := change.goes found
  exact ⟨after, found', (peopled.sound found).state_eq goes terminal⟩

/-- What a request has found out stays true, if the job stays the same run as long as the request
has it to itself. -/
theorem Holds.turn {stage : Errand.Stage} (holds : house.Holds stage)
    (peopled : house.Peopled past) (change : house.Change move next)
    (same : ∀ call, stage.duty? = some (.call call) → next.slot = house.slot) :
    next.Holds stage := by
  cases stage with
  | atJob duty =>
      cases duty with
      | call call =>
          intro state seen terminal
          obtain ⟨run, slot, ended⟩ := holds state seen terminal
          exact ⟨run, (same call rfl).trans slot, ended.turn terminal peopled change⟩
      | _ => trivial
  | atReport shown =>
      cases shown with
      | none => trivial
      | some shown => exact fun terminal => (holds terminal).turn terminal peopled change
  | _ => trivial

/-- What a control call finds out at its access is true. -/
theorem holds_attend_call {now : Instant} {runId : String} {call : Call}
    (holds : house.Holds (.atJob (.call call))) :
    house.Holds (house.attend now runId (.call call)).2 := by
  simp only [attend]
  cases current : house.current? with
  | none => cases call <;> trivial
  | some found =>
      obtain ⟨run, job⟩ := found
      obtain ⟨slot, found⟩ := current?_eq_some.mp current
      simp only
      cases rest : (call.step job.sequencer.totalWork now job.sequencer.board).2 with
      | more next =>
          intro state seen terminal
          rcases Call.seen?_of_more rest seen with earlier | rfl
          · exact holds state earlier terminal
          · exact ⟨run, slot, job, found, rfl⟩
      | result result =>
          cases result with
          | done | skipped => trivial
          | progress progress =>
              intro terminal
              obtain ⟨other, same, ended⟩ := holds _ (Call.seen?_of_progress rest) terminal
              cases slot.symm.trans same
              exact ended

/-- What a request finds out when it is served is true. -/
theorem holds_attend {now : Instant} {runId : String} {duty : Duty}
    (holds : house.Holds (.atJob duty)) : house.Holds (house.attend now runId duty).2 := by
  cases duty with
  | call => exact holds_attend_call holds
  | vet | start =>
      simp only [attend]
      split <;> (try split) <;> trivial
  | decline | install | look => trivial

/-- All that the requests have found out is true. -/
def Informed (house : House) : Prop :=
  ∀ errand ∈ house.errands, house.Holds errand.stage

/-- Requests begin without having found out anything. -/
theorem holds_of_concerns {request : Request} {duty : Duty}
    (concerns : request.duty? = some duty) : house.Holds (.atJob duty) := by
  unfold Request.duty? at concerns
  split at concerns
  · obtain ⟨sequence, -, rfl⟩ := Option.map_eq_some_iff.mp concerns
    trivial
  all_goals cases concerns
  all_goals exact fun _ seen => by cases seen

/-- Only a request that has just started a run changes which run is the job. -/
theorem slot_attend {now : Instant} {runId : String} {duty : Duty}
    (plain : duty.isInstall = false) : (house.attend now runId duty).1.slot = house.slot := by
  cases duty with
  | install => cases plain
  | decline | look => rfl
  | vet | start | call =>
      simp only [attend]
      split <;> (try split) <;> rfl

/-- What the requests have found out stays true through every move. -/
theorem Informed.turn (informed : house.Informed) (orderly : house.Orderly)
    (peopled : house.Peopled past) (change : house.Change move next) : next.Informed := by
  have moved := change
  intro errand member
  have kept : errand ∈ house.errands → next.slot = house.slot → next.Holds errand.stage :=
    fun old slot => (informed errand old).turn peopled moved fun _ _ => slot
  cases change with
  | receives request _ changed =>
      subst changed
      rcases List.mem_append.mp member with old | new
      · exact kept old rfl
      · cases List.mem_singleton.mp new
        trivial
  | enters _ found concerns free changed =>
      subst changed
      rcases List.mem_or_eq_of_mem_set member with old | rfl
      · exact kept old rfl
      · exact Holds.turn (holds_of_concerns concerns) peopled moved fun _ _ => rfl
  | @attends _ now runId _ duty _ found changed =>
      subst changed
      have alone := eq_singleton_of_mem (mem_duties found) orderly.alone
      rcases List.mem_or_eq_of_mem_set member with old | rfl
      · rw [errands_attend] at old
        refine (informed errand old).turn peopled moved fun call waits => ?_
        have only : .call call ∈ house.duties := List.mem_filterMap.mpr ⟨errand, old, waits⟩
        rw [alone, List.mem_singleton] at only
        subst only
        exact slot_attend rfl
      · refine Holds.turn (holds_attend (informed _ (List.mem_of_getElem? found))) peopled moved
          fun call goesOn => ?_
        cases duty with
        | install => cases goesOn
        | _ => exact slot_attend rfl
  | answers plant _ found away changed =>
      subst changed
      rcases List.mem_or_eq_of_mem_set member with old | rfl
      · exact kept old rfl
      · trivial
  | works plant _ found advances changed =>
      subst changed
      exact kept member rfl

/-! ## Which report is the last one -/

/-- The reports are stored in the places of their runs. -/
theorem Accounted.mem_storedIn (accounted : house.Accounted past) {run : Nat} {report : RunReport} :
    (run, report) ∈ storedIn past ↔ (storedIn past)[run]? = some (run, report) := by
  refine ⟨fun member => ?_, List.mem_of_getElem?⟩
  obtain ⟨place, stands⟩ := List.getElem?_of_mem member
  have inBounds := (List.getElem?_eq_some_iff.mp stands).1
  have same := congrArg (·[place]?) accounted.inOrder
  simp only [List.getElem?_map, stands, Option.map_some, List.getElem?_range inBounds,
    Option.some.injEq] at same
  subst same
  exact stands

/-- A run that is no longer going has stored its own report. -/
theorem Accounted.exists_stored (accounted : house.Accounted past) {run : Nat} {job : Job}
    (found : house.runs[run]? = some job) (ended : job.isGoing = false) :
    ∃ report, (run, report) ∈ storedIn past ∧ report.runId = job.runId ∧
      report.state = job.sequencer.state := by
  rw [Job.isGoing, Bool.not_eq_false'] at ended
  have within := (accounted.upTo found).mp ended
  obtain ⟨report, member⟩ : ∃ report, (run, report) ∈ storedIn past := by
    have runs : run ∈ (storedIn past).map Prod.fst := by
      rw [accounted.inOrder]
      exact List.mem_range.mpr within
    obtain ⟨⟨_, report⟩, member, rfl⟩ := List.mem_map.mp runs
    exact ⟨report, member⟩
  obtain ⟨job', found', name, state, -⟩ := accounted.own member
  cases found.symm.trans found'
  exact ⟨report, member, name, state⟩

/-- A report that was stored is the last one until a later run stores its own. -/
theorem Accounted.lastReport_eq (accounted : house.Accounted past) {run : Nat} {report : RunReport}
    (stored : (run, report) ∈ storedIn past)
    (newest : ∀ later job, run < later → house.runs[later]? = some job → job.isGoing = true) :
    house.lastReport = some report := by
  have stands := accounted.mem_storedIn.mp stored
  have within := (List.getElem?_eq_some_iff.mp stands).1
  have length : (storedIn past).length = run + 1 := by
    by_contra other
    have inBounds : run + 1 < house.runs.length := by
      have := accounted.within
      omega
    have going := newest _ _ (Nat.lt_succ_self run) (List.getElem?_eq_getElem inBounds)
    have kept := (accounted.upTo (List.getElem?_eq_getElem inBounds)).mpr (by omega)
    simp [Job.isGoing, kept] at going
  rw [accounted.last, List.getLast?_eq_getElem?, length, Nat.add_sub_cancel, stands]
  rfl

/-- There is truth in what the requests of a daemon have found out from its start on. -/
theorem Season.informed {config : Config Float} {opened : Instant}
    (season : (Daemon.ofConfig config opened).house.Season past house) : house.Informed := by
  induction season with
  | opening => exact fun _ member => by cases member
  | move season moved ih =>
      exact ih.turn season.orderly season.peopled (change_of_move? moved)

end House

/-- A run that is over and has not stored its report has it in hand, and has nothing left to do but
to publish it. -/
theorem Job.Sound.exists_report_in_hand {job : Job} {tasks : List (Task Float)}
    (sound : job.Sound tasks) (going : job.isGoing = true)
    (terminal : job.sequencer.state.isTerminal = true) :
    ∃ worker report, job.phase = .executing worker ∧ worker.report = some report ∧
      report.state = job.sequencer.state ∧
      ∀ task ∈ worker.agenda, ∃ event, task = .announce event := by
  cases sound with
  | waiting _ idle => simp [Sequencer.state, idle, RunState.isTerminal] at terminal
  | engaged first free engaged =>
      obtain ⟨worker, employs, engagement⟩ := engaged
      have ended : ¬ worker.IsOpen := by
        rw [← engagement.current]
        change job.sequencer.board.run.isTerminal = true at terminal
        cases run : job.sequencer.board.run <;> simp_all [RunState.isTerminal, RunState.isActive]
      obtain ⟨_, -, suffix⟩ := engagement.stage.exists_report ended
      obtain ⟨report, reported, state⟩ := engagement.state ended
      have executing : job.phase = .executing worker := by
        cases phase : job.phase with
        | executing => rw [phase] at employs; exact congrArg _ employs
        | pending | closing | ended => simp_all [Phase.Employs, Job.isGoing, Job.hasStored]
      exact ⟨worker, report, executing, reported, state.symm, fun task member =>
        Worker.exists_event_of_suffix suffix member⟩

namespace House

variable {house next : House} {past : List Happening} {config : Config Float} {opened : Instant}
variable {position : Nat} {now : Instant} {runId : String} {request : Request} {run : Nat}
variable {progress : Progress}

/-- A request for the status answers with the progress that it has seen and the last report. -/
theorem errands_of_status
    (found : house.errands[position]? = some ⟨request, .atReport (some (run, progress))⟩)
    (answered : house.move? (.serve position now runId) = some next) :
    next.errands[position]? =
      some ⟨request, .answered (.ok (statusAnswer (some progress) house.lastReport))⟩ := by
  simp only [move?, found, Option.bind_some, serve?] at answered
  cases answered
  exact List.getElem?_set_self (List.getElem?_eq_some_iff.mp found).1

/-- A request for the status whose progress says that a run is over answers with the last report. If
the run has stored its report, that is the last one, unless a later run has stored its own. If it
has not, the worker has the report in hand and has only its end to publish, and the last report is
still that of the run before. -/
theorem status_shows_report_once_stored
    (season : (Daemon.ofConfig config opened).house.Season past house)
    (found : house.errands[position]? = some ⟨request, .atReport (some (run, progress))⟩)
    (terminal : progress.state.isTerminal = true)
    (answered : house.move? (.serve position now runId) = some next) :
    next.errands[position]? =
        some ⟨request, .answered (.ok (statusAnswer (some progress) house.lastReport))⟩ ∧
      ∃ job, house.runs[run]? = some job ∧ job.sequencer.state = progress.state ∧
        (job.isGoing = false → ∃ report, (run, report) ∈ storedIn past ∧
          report.runId = job.runId ∧ report.state = progress.state ∧
          ((∀ later job, run < later → house.runs[later]? = some job → job.isGoing = true) →
            house.lastReport = some report)) ∧
        (job.isGoing = true → (storedIn past).map Prod.fst = List.range run ∧
          house.lastReport = (storedIn past).getLast?.map Prod.snd ∧
          ∃ worker report, job.phase = .executing worker ∧ worker.report = some report ∧
            report.state = progress.state ∧ ∀ task ∈ worker.agenda, ∃ event,
              task = .announce event) := by
  have accounted := season.accounted
  obtain ⟨job, stands, state⟩ := season.informed _ (List.mem_of_getElem? found) terminal
  refine ⟨errands_of_status found answered, job, stands, state, fun ended => ?_, fun going => ?_⟩
  · obtain ⟨report, stored, name, same⟩ := accounted.exists_stored stands ended
    exact ⟨report, stored, name, same.trans state, accounted.lastReport_eq stored⟩
  · obtain ⟨-, length⟩ := accounted.length_eq season.orderly stands
      (by simpa [Job.isGoing] using going)
    obtain ⟨worker, report, executing, reported, same, publishes⟩ :=
      (season.peopled.sound stands).exists_report_in_hand going (state ▸ terminal)
    refine ⟨?_, accounted.last, worker, report, executing, reported, same.trans state, publishes⟩
    rw [accounted.inOrder, length]

/-- Two runs of a note one after the other, each of which has stored its report: the second one is
shown as finished together with its own report. -/
theorem status_of_second_run_shows_its_report :
    ∃ past house next request progress job report, bare.Season past house ∧
      house.errands[2]? = some ⟨request, .atReport (some (1, progress))⟩ ∧
      progress.state.isTerminal = true ∧ house.runs[1]? = some job ∧ report.runId = job.runId ∧
      house.move? (.serve 2 0 "") = some next ∧
      next.errands[2]? =
        some ⟨request, .answered (.ok (statusAnswer (some progress) (some report)))⟩ := by
  have rehearsed : rehearseAround
      (Move.asking (Request.submission ⟨none, [.comment "first"]⟩) 0 4 "first" ++
        List.replicate 25 (Move.work 0 0) ++
        Move.asking (Request.submission ⟨none, [.comment "second"]⟩) 1 4 "second" ++
        List.replicate 24 (Move.work 1 0) ++ Move.asking (Request.plain "status") 2 7 "")
      (.serve 2 0 "") []
      (fun _ house _ _ _ => house.errands[2]?.any (fun errand => errand.shown?.any fun shown =>
          shown.1 == 1 && shown.2.state.isTerminal) &&
        house.runs.length == 2 && house.runs[1]?.any fun job => !job.isGoing) = true := by
    decide +kernel
  obtain ⟨past, house, next, _, _, season, moved, -, test⟩ := exists_of_rehearseAround rehearsed
  simp only [Bool.and_eq_true, beq_iff_eq, Option.any_eq_true, Bool.not_eq_true'] at test
  obtain ⟨⟨⟨errand, found, ⟨run, progress⟩, shows, second, terminal⟩, two⟩, job, stands, ended⟩ :=
    test
  subst second
  rw [Errand.eq_of_shown? shows] at found
  obtain ⟨answer, job', stands', -, stored, -⟩ :=
    status_shows_report_once_stored season found terminal moved
  cases stands.symm.trans stands'
  obtain ⟨report, -, name, -, newest⟩ := stored ended
  have last : house.lastReport = some report := newest fun later _ behind found => by
    have inBounds := (List.getElem?_eq_some_iff.mp found).1
    omega
  rw [last] at answer
  exact ⟨past, house, next, errand.request, progress, job, report, season, found, terminal, stands,
    name, moved, answer⟩

/-- Whether a request for the status is answered with the end of one run and the report of
another one, by their names. -/
def Mismatches (house next : House) (position : Nat) (ended reported : String) : Prop :=
  ∃ request run progress job report,
    house.errands[position]? = some ⟨request, .atReport (some (run, progress))⟩ ∧
    progress.state.isTerminal = true ∧ house.runs[run]? = some job ∧ job.runId = ended ∧
    report.runId = reported ∧ next.errands[position]? =
      some ⟨request, .answered (.ok (statusAnswer (some progress) (some report)))⟩

/-- The names of the run that a request is going to show as over and of the run that left the last
report. -/
def told? (house : House) (position : Nat) : Option (String × String) := do
  let errand ← house.errands[position]?
  let (run, progress) ← errand.shown?
  let job ← house.runs[run]?
  let report ← house.lastReport
  if progress.state.isTerminal then some (job.runId, report.runId) else none

theorem mismatches_of_told? {ended reported : String}
    (told : house.told? position = some (ended, reported))
    (answered : house.move? (.serve position now runId) = some next) :
    house.Mismatches next position ended reported := by
  simp only [told?, Option.bind_eq_bind, Option.bind_eq_some_iff] at told
  obtain ⟨errand, found, ⟨run, progress⟩, shows, job, stands, report, last, told⟩ := told
  split at told
  · rename_i terminal
    cases told
    rw [Errand.eq_of_shown? shows] at found
    have answer := errands_of_status found answered
    rw [last] at answer
    exact ⟨_, run, progress, job, report, found, terminal, stands, rfl, rfl, answer⟩
  · cases told

/-- Two runs of a note one after the other. While the second one is over but has not stored its
report, it is shown with the report of the first one. If the first one is seen as over before the
second one is submitted, it may be shown with the report of the second one. -/
theorem status_shows_report_of_other_run :
    (∃ past house next, bare.Season past house ∧ house.move? (.serve 2 0 "") = some next ∧
      house.Mismatches next 2 "second" "first") ∧
    ∃ past house next, bare.Season past house ∧ house.move? (.serve 1 0 "") = some next ∧
      house.Mismatches next 1 "first" "second" := by
  have early : rehearseAround
      (Move.asking (Request.submission ⟨none, [.comment "first"]⟩) 0 4 "first" ++
        List.replicate 25 (Move.work 0 0) ++
        Move.asking (Request.submission ⟨none, [.comment "second"]⟩) 1 4 "second" ++
        List.replicate 21 (Move.work 1 0) ++ Move.asking (Request.plain "status") 2 7 "")
      (.serve 2 0 "") []
      (fun _ house _ _ _ => house.told? 2 == some ("second", "first")) = true := by
    decide +kernel
  have late : rehearseAround
      (Move.asking (Request.submission ⟨none, [.comment "first"]⟩) 0 4 "first" ++
        List.replicate 25 (Move.work 0 0) ++ Move.asking (Request.plain "status") 1 7 "" ++
        Move.asking (Request.submission ⟨none, [.comment "second"]⟩) 2 4 "second" ++
        List.replicate 24 (Move.work 1 0))
      (.serve 1 0 "") []
      (fun _ house _ _ _ => house.told? 1 == some ("first", "second")) = true := by
    decide +kernel
  obtain ⟨past, house, next, _, _, season, moved, -, told⟩ := exists_of_rehearseAround early
  obtain ⟨past', house', next', _, _, season', moved', -, told'⟩ := exists_of_rehearseAround late
  exact ⟨⟨past, house, next, season, moved, mismatches_of_told? (eq_of_beq told) moved⟩,
    past', house', next', season', moved', mismatches_of_told? (eq_of_beq told') moved'⟩

end House

end Scan
