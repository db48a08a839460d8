import Scan.Proofs.Engagement

/-!
# One run after another

The runs of a daemon follow one another: each of them is over, and its report is stored, before the
next one is started. So the reports are stored in the order of the runs, each of them once, and the
last one that was stored is the last report.
-/

namespace Scan

/-! ## Signed reports -/

/-- The report that a worker writes is signed with the name of its run. -/
theorem Life.signed {α : Type} [Scalar α] {others : Board → Board → Prop} {board now : Board}
    {worker current : Worker α} {past : List (Deed α)}
    (life : Life others board worker past now current) (steady : worker.IsSteady)
    (start : ∀ report ∈ worker.report, report.runId = worker.runId) :
    current.runId = worker.runId ∧ ∀ report ∈ current.report, report.runId = worker.runId := by
  induction life with
  | begin => exact ⟨rfl, start⟩
  | wait _ _ ih => exact ih
  | @work _ now _ current next task _ reply life agenda stepped ih =>
      obtain ⟨name, signed⟩ := ih
      have noted : (current.noting now task reply).runId = worker.runId ∧
          ∀ report ∈ (current.noting now task reply).report, report.runId = worker.runId := by
        unfold Worker.noting
        split
        · unfold Worker.closing
          split <;> exact ⟨name, signed⟩
        · exact ⟨name, signed⟩
        · refine ⟨name, fun report written => ?_⟩
          cases written
          exact name
        · exact ⟨name, signed⟩
      cases Worker.outcome_of_step? (life.isSteady steady) agenda stepped with
      | sound | cleaning => exact noted
      | broken => exact ⟨name, signed⟩

/-! ## Stored reports -/

namespace Job

/-- Whether the report of a run has been stored. -/
def hasStored (job : Job) : Bool :=
  match job.phase with
  | .closing | .ended => true
  | _ => false

/-- Whether a run is pending or executing. -/
def isGoing (job : Job) : Bool :=
  !job.hasStored

/-- The report that the worker of a job is about to leave. -/
def leaving? (job : Job) : Option RunReport :=
  match job.phase with
  | .executing worker => if worker.agenda.isEmpty then worker.report else none
  | _ => none

theorem hasStored_of_isOver {job : Job} (isOver : job.isOver = true) : job.hasStored = true := by
  rw [isOver_eq_true] at isOver
  simp [hasStored, isOver]

variable {job after : Job} {tasks : List (Task Float)} {task : Option (Task Float)}

theorem Goes.runId_eq (goes : job.Goes task after) : after.runId = job.runId := by
  cases goes with
  | attended attended => cases attended <;> rfl
  | advances advances => cases advances <;> rfl

theorem Attended.hasStored_eq (attended : job.Attended after) :
    after.hasStored = job.hasStored := by
  cases attended <;> rfl

/-- The state in which a run has ended stays as it is. -/
theorem Sound.state_eq (sound : job.Sound tasks) (goes : job.Goes task after)
    (ended : job.sequencer.state.isTerminal = true) :
    after.sequencer.state = job.sequencer.state := by
  have inactive : job.sequencer.board.run.isActive ≠ true := by
    intro active
    change job.sequencer.board.run.isTerminal = true at ended
    cases run : job.sequencer.board.run <;> simp [run, RunState.isTerminal,
      RunState.isActive] at ended active
  cases goes with
  | attended attended =>
      cases attended with
      | stays => rfl
      | called foreign => exact foreign.run.resolve_right fun both => inactive both.1
  | advances advances =>
      cases sound with
      | waiting _ idle => simp [Sequencer.state, idle, RunState.isTerminal] at ended
      | engaged first free engaged =>
          obtain ⟨worker, employs, engagement⟩ := engaged
          cases advances with
          | begins pending | refused pending => simp [pending, Phase.Employs] at employs
          | works executing stepped =>
              rw [executing] at employs
              cases employs
              obtain ⟨task, rest, agenda, -⟩ := Worker.step?_cases stepped
              exact (engagement.run_of_over (mt engagement.current.mpr inactive) agenda
                (Worker.outcome_of_step? engagement.isSteady agenda stepped)).1
          | stores | leaves => rfl

/-- A worker that has nothing left to do has its report, which is signed and says the state of the
run. -/
theorem Sound.exists_report (sound : job.Sound tasks) {worker : Worker Float}
    (executing : job.phase = .executing worker) (done : worker.agenda = []) :
    ∃ report, worker.report = some report ∧ report.runId = job.runId ∧
      report.state = job.sequencer.state ∧ report.state.isTerminal = true := by
  cases sound with
  | waiting pending => simp [pending] at executing
  | engaged first free engaged =>
      obtain ⟨_, employs, engagement⟩ := engaged
      rw [executing] at employs
      cases employs
      have ended : ¬ worker.IsOpen := by
        rintro ⟨task, member, -⟩
        simp [done] at member
      obtain ⟨report, reports, -⟩ := engagement.stage.exists_report ended
      obtain ⟨same, reported, state⟩ := engagement.state ended
      cases reported.symm.trans reports.kept
      obtain ⟨deeds, -, life⟩ := engagement.life
      refine ⟨report, reported, ?_, state.symm, ?_⟩
      · exact (life.signed Worker.isSteady_ofSteps (by simp [Sequencer.worker,
          Worker.ofSteps])).2 report reported
      · rw [reports.state]
        unfold Worker.finalState
        split <;> rfl

end Job

/-- The report that is stored in a happening, with the number of its run. -/
def Happening.stored? (happening : Happening) : Option (Nat × RunReport) :=
  match happening.move with
  | .work run _ =>
      (happening.house.runs[run]?.bind Job.leaving?).map fun report => (run, report)
  | _ => none

/-- The reports that were stored in some happenings, with the numbers of their runs. -/
def storedIn (past : List Happening) : List (Nat × RunReport) :=
  past.filterMap Happening.stored?

theorem storedIn_concat (past : List Happening) (happening : Happening) :
    storedIn (past ++ [happening]) = storedIn past ++ happening.stored?.toList := by
  cases stores : happening.stored? <;> simp [storedIn, stores]

namespace House

variable {house next : House} {move : Move} {past : List Happening}

/-- What the reports that were stored say about a house. -/
structure Accounted (house : House) (past : List Happening) : Prop where
  inOrder : (storedIn past).map Prod.fst = List.range (storedIn past).length
  within : (storedIn past).length ≤ house.runs.length
  upTo : ∀ {run : Nat} {job : Job}, house.runs[run]? = some job →
    (job.hasStored = true ↔ run < (storedIn past).length)
  last : house.lastReport = (storedIn past).getLast?.map Prod.snd
  own : ∀ {run : Nat} {report : RunReport}, (run, report) ∈ storedIn past →
    ∃ job, house.runs[run]? = some job ∧ report.runId = job.runId ∧
      report.state = job.sequencer.state ∧ report.state.isTerminal = true

/-- A report goes on being that of its run. -/
theorem Accounted.own_later (accounted : house.Accounted past) (peopled : house.Peopled past)
    (change : house.Change move next) {run : Nat} {report : RunReport}
    (stored : (run, report) ∈ storedIn past) :
    ∃ job, next.runs[run]? = some job ∧ report.runId = job.runId ∧
      report.state = job.sequencer.state ∧ report.state.isTerminal = true := by
  obtain ⟨job, found, name, state, ended⟩ := accounted.own stored
  obtain ⟨after, found', goes⟩ := change.goes found
  refine ⟨after, found', name.trans goes.runId_eq.symm, ?_, ended⟩
  rw [(peopled.sound found).state_eq goes (state ▸ ended), state]

/-- The account stays the same as long as no report is stored. -/
theorem Accounted.of_silent (accounted : house.Accounted past) (peopled : house.Peopled past)
    (change : house.Change move next) (silent : (⟨house, move⟩ : Happening).stored? = none)
    (report : next.lastReport = house.lastReport)
    (same : ∀ {run : Nat} {job : Job}, house.runs[run]? = some job →
      ∃ after, next.runs[run]? = some after ∧ after.hasStored = job.hasStored) :
    next.Accounted (past ++ [⟨house, move⟩]) := by
  have stored : storedIn (past ++ [⟨house, move⟩]) = storedIn past := by
    rw [storedIn_concat, silent]
    exact List.append_nil _
  refine ⟨?_, ?_, fun {run job} found => ?_, ?_, fun member => ?_⟩
  · rw [stored, accounted.inOrder]
  · rw [stored]
    exact Nat.le_trans accounted.within change.length_le
  · rw [stored]
    rcases Nat.lt_or_ge run house.runs.length with old | new
    · obtain ⟨after, found', kept⟩ := same (List.getElem?_eq_getElem old)
      cases found'.symm.trans found
      rw [kept, accounted.upTo (List.getElem?_eq_getElem old)]
    · obtain ⟨-, pending, -⟩ := change.fresh found new
      have within := accounted.within
      simp only [Job.hasStored, pending, Bool.false_eq_true, false_iff]
      omega
  · rw [report, stored, accounted.last]
  · rw [stored] at member
    exact accounted.own_later peopled change member

/-- All runs before one that has not stored its report have stored theirs. -/
theorem Accounted.length_eq (accounted : house.Accounted past) (orderly : house.Orderly) {run : Nat}
    {job : Job} (found : house.runs[run]? = some job) (going : job.hasStored = false) :
    run + 1 = house.runs.length ∧ (storedIn past).length = run := by
  have last := orderly.last_of_not_isOver found (by
    rw [← Bool.not_eq_true]
    intro isOver
    simp [Job.hasStored_of_isOver isOver] at going)
  refine ⟨last, ?_⟩
  have notYet := accounted.upTo found
  simp only [going, Bool.false_eq_true, false_iff, Nat.not_lt] at notYet
  cases run with
  | zero => omega
  | succ before =>
      have inBounds : before < house.runs.length := by omega
      have isOver := orderly.earlier (List.getElem?_eq_getElem inBounds) (by omega)
      have stored := (accounted.upTo (List.getElem?_eq_getElem inBounds)).mp
        (Job.hasStored_of_isOver isOver)
      omega

/-- A run that stores its report is the next one after those that have stored theirs. -/
theorem Accounted.of_stores (accounted : house.Accounted past) (orderly : house.Orderly)
    (peopled : house.Peopled past) {run : Nat} {now : Instant}
    (change : house.Change (.work run now) next) {job : Job} {worker : Worker Float}
    (found : house.runs[run]? = some job) (executing : job.phase = .executing worker)
    (done : worker.agenda = [])
    (runs : next.runs = house.runs.set run { job with phase := .closing })
    (left : next.lastReport = worker.report.or house.lastReport) :
    next.Accounted (past ++ [⟨house, .work run now⟩]) := by
  have going : job.hasStored = false := by simp [Job.hasStored, executing]
  obtain ⟨last, length⟩ := accounted.length_eq orderly found going
  obtain ⟨report, reported, name, state, ended⟩ :=
    (peopled.sound found).exists_report executing done
  have leaving : (⟨house, .work run now⟩ : Happening).stored? = some (run, report) := by
    simp [Happening.stored?, found, Job.leaving?, executing, done, reported]
  have stored : storedIn (past ++ [⟨house, .work run now⟩]) =
      storedIn past ++ [(run, report)] := by
    rw [storedIn_concat, leaving]
    rfl
  have inBounds := (List.getElem?_eq_some_iff.mp found).1
  have own : next.runs[run]? = some { job with phase := .closing } := by
    rw [runs, List.getElem?_set_self inBounds]
  refine ⟨?_, ?_, fun {other job'} found' => ?_, ?_, fun {other report'} member => ?_⟩
  · rw [stored, List.map_append, accounted.inOrder, List.length_append, List.length_singleton,
      List.range_succ, length]
    rfl
  · rw [stored, runs, List.length_append, List.length_singleton, List.length_set]
    omega
  · rw [stored, List.length_append, List.length_singleton, length]
    by_cases same : other = run
    · subst same
      cases own.symm.trans found'
      exact iff_of_true rfl (Nat.lt_succ_self other)
    · rw [runs, List.getElem?_set_ne (Ne.symm same)] at found'
      rw [accounted.upTo found', length]
      omega
  · rw [left, reported, stored, List.getLast?_concat]
    rfl
  · rw [stored] at member
    rcases List.mem_append.mp member with earlier | new
    · exact accounted.own_later peopled change earlier
    · cases List.mem_singleton.mp new
      exact ⟨_, own, name, state, ended⟩

/-- Only the worker of a run changes the last report. -/
theorem Change.lastReport_eq (change : house.Change move next)
    (request : move.isWork = false) : next.lastReport = house.lastReport := by
  cases change with
  | receives _ _ changed | enters _ _ _ _ changed | answers _ _ _ _ changed =>
      subst changed
      rfl
  | attends _ _ changed =>
      rw [changed]
      exact house.lastReport_attend ..
  | works _ moves => simp [moves, Move.isWork] at request

/-- A worker that stores no report leaves the account as it is. -/
theorem Accounted.of_quiet (accounted : house.Accounted past) (peopled : house.Peopled past)
    {run : Nat} {now : Instant} (change : house.Change (.work run now) next) {job after : Job}
    (found : house.runs[run]? = some job) (silent : job.leaving? = none)
    (runs : next.runs = house.runs.set run after) (report : next.lastReport = house.lastReport)
    (kept : after.hasStored = job.hasStored) :
    next.Accounted (past ++ [⟨house, .work run now⟩]) := by
  refine accounted.of_silent peopled change ?_ report fun {other job'} found' => ?_
  · simp [Happening.stored?, found, silent]
  · rw [runs]
    by_cases same : other = run
    · subst same
      cases found.symm.trans found'
      exact ⟨after, List.getElem?_set_self (List.getElem?_eq_some_iff.mp found).1, kept⟩
    · exact ⟨job', (List.getElem?_set_ne (Ne.symm same)).trans found', rfl⟩

/-- The account is kept by the worker of any run. -/
theorem Accounted.works (accounted : house.Accounted past) (orderly : house.Orderly)
    (peopled : house.Peopled past) {run : Nat} {now : Instant}
    (change : house.Change (.work run now) next) {job after : Job} {report : Option RunReport}
    (found : house.runs[run]? = some job) (advances : job.Advances house.lastReport after report)
    (runs : next.runs = house.runs.set run after) (left : next.lastReport = report) :
    next.Accounted (past ++ [⟨house, .work run now⟩]) := by
  cases advances with
  | begins pending =>
      exact accounted.of_quiet peopled change found (by simp [Job.leaving?, pending]) runs left
        (by simp [Job.hasStored, pending])
  | refused pending refused =>
      have free := (peopled.sound found).isTaken_eq_false pending
      simp [Sequencer.beginRun, free] at refused
  | works executing stepped =>
      obtain ⟨task, rest, agenda, -⟩ := Worker.step?_cases stepped
      exact accounted.of_quiet peopled change found (by simp [Job.leaving?, executing, agenda])
        runs left (by simp [Job.hasStored, executing])
  | stores executing done =>
      exact accounted.of_stores orderly peopled change found executing done runs left
  | leaves closing =>
      exact accounted.of_quiet peopled change found (by simp [Job.leaving?, closing]) runs left
        (by simp [Job.hasStored, closing])

/-- The account is kept through every move. -/
theorem Accounted.turn (accounted : house.Accounted past) (orderly : house.Orderly)
    (peopled : house.Peopled past) (change : house.Change move next) :
    next.Accounted (past ++ [⟨house, move⟩]) := by
  cases move with
  | receive | serve =>
      refine accounted.of_silent peopled change rfl (change.lastReport_eq rfl) fun found => ?_
      obtain ⟨after, found, attended⟩ := change.attended rfl found
      exact ⟨after, found, attended.hasStored_eq⟩
  | work run now =>
      have moved := change
      cases change with
      | receives _ moves | enters moves | attends moves | answers _ moves => cases moves
      | works plant moves found advances changed =>
          cases moves
          exact accounted.works orderly peopled moved found advances (by rw [changed])
            (by rw [changed])

section Seasons

variable {config : Config Float} {opened : Instant}

/-- The account of a daemon is kept from its start on. -/
theorem Season.accounted (season : (Daemon.ofConfig config opened).house.Season past house) :
    house.Accounted past := by
  induction season with
  | opening =>
      refine ⟨rfl, Nat.zero_le _, fun found => ?_, rfl, fun member => ?_⟩
      · cases found
      · cases member
  | move season moved ih => exact ih.turn season.orderly season.peopled (change_of_move? moved)

/-! ## Requests and the order of the runs -/

/-- A run is only started after all others are over and have stored their reports. -/
theorem Accounted.stored_of_ended (accounted : house.Accounted past)
    (ended : ∀ job ∈ house.runs, job.isOver = true) :
    (storedIn past).map Prod.fst = List.range house.runs.length := by
  rw [accounted.inOrder]
  rcases Nat.lt_or_ge (storedIn past).length house.runs.length with fewer | all
  · have isOver := ended _ (List.getElem_mem fewer)
    have stored := (accounted.upTo (List.getElem?_eq_getElem fewer)).mp
      (Job.hasStored_of_isOver isOver)
    exact absurd stored (Nat.lt_irrefl _)
  · rw [Nat.le_antisymm accounted.within all]

/-- Only a request that found all runs over starts another one. -/
theorem Change.ended_of_starts (change : house.Change move next) (orderly : house.Orderly)
    (starts : house.runs.length < next.runs.length) : ∀ job ∈ house.runs, job.isOver = true := by
  cases change with
  | receives _ _ changed | enters _ _ _ _ changed | answers _ _ _ _ changed =>
      subst changed
      exact absurd starts (Nat.lt_irrefl _)
  | works _ _ _ _ changed =>
      subst changed
      exact absurd starts (by simp)
  | @attends _ now runId _ duty _ found changed =>
      subst changed
      change house.runs.length < (house.attend now runId duty).1.runs.length at starts
      rcases house.runs_attend now runId duty with same | ⟨sequence, _, rfl, -⟩
      · exact absurd starts (by omega)
      · exact orderly.fits (.start sequence) (mem_duties found)

/-- A request does not touch any run but the last one. -/
theorem Change.eq_of_earlier (change : house.Change move next) (orderly : house.Orderly)
    (request : move.isWork = false) {run : Nat} (earlier : run + 1 < house.runs.length) :
    next.runs[run]? = house.runs[run]? := by
  have inBounds : run < house.runs.length := by omega
  cases change with
  | receives _ _ changed | enters _ _ _ _ changed | answers _ _ _ _ changed =>
      subst changed
      rfl
  | works _ moves => simp [moves, Move.isWork] at request
  | @attends _ now runId _ duty _ found changed =>
      subst changed
      have duties := eq_singleton_of_mem (mem_duties found) orderly.alone
      change (house.attend now runId duty).1.runs[run]? = house.runs[run]?
      cases duty with
      | vet | start =>
          simp only [attend]
          split <;> (try split) <;> first | rfl | exact List.getElem?_append_left inBounds
      | decline | install | look => rfl
      | call call =>
          simp only [attend]
          split
          · rename_i other job current
            obtain ⟨-, last⟩ := orderly.last_of_current? (by rw [duties]; rfl) current
            exact List.getElem?_set_ne (by omega)
          · rfl

/-- At most one run is pending or executing. -/
theorem Orderly.countP_isGoing_le (orderly : house.Orderly) :
    house.runs.countP Job.isGoing ≤ 1 := by
  rcases List.eq_nil_or_concat house.runs with none | ⟨earlier, latest, runs⟩
  · simp [none]
  · rw [List.concat_eq_append] at runs
    have others : earlier.countP Job.isGoing = 0 := by
      rw [List.countP_eq_zero]
      intro job member
      obtain ⟨run, inBounds, rfl⟩ := List.getElem_of_mem member
      have found : house.runs[run]? = some earlier[run] := by
        rw [runs, List.getElem?_append_left inBounds, List.getElem?_eq_getElem inBounds]
      have ended := orderly.earlier found (by simp [runs]; omega)
      simp [Job.isGoing, Job.hasStored_of_isOver ended]
    rw [runs, List.countP_append, others, List.countP_singleton]
    split <;> omega

/-- At most one run is pending or executing at any moment. A request starts a run only if all others
are over and have stored their reports, and the run that it accepts is the last one then. Every run
that is no longer going has stored its own report once, in the order of the runs, and the last
report is the last of them. A request that has the job to itself finds the run that was started last
there, unless it has just started one itself, and no request touches another one. -/
theorem runs_succeed_one_another
    (season : (Daemon.ofConfig config opened).house.Season past house) :
    house.runs.countP Job.isGoing ≤ 1 ∧
      (∀ position now runId next, house.move? (.serve position now runId) = some next →
        house.runs.length < next.runs.length →
          (∀ job ∈ house.runs, job.isOver = true) ∧
            (storedIn past).map Prod.fst = List.range house.runs.length) ∧
      (∀ (position : Nat) request run totalWork,
        house.errands[position]? = some ⟨request, .atJob (.install run totalWork)⟩ →
          run + 1 = house.runs.length ∧ ∀ earlier job, earlier < run →
            house.runs[earlier]? = some job → job.isOver = true ∧ job.isGoing = false) ∧
      (∃ count, (storedIn past).map Prod.fst = List.range count ∧
        (∀ run job, house.runs[run]? = some job → (job.isGoing = false ↔ run < count)) ∧
        (∀ run report, (run, report) ∈ storedIn past → ∃ job, house.runs[run]? = some job ∧
          report.runId = job.runId ∧ report.state = job.sequencer.state) ∧
        house.lastReport = (storedIn past).getLast?.map Prod.snd) ∧
      (∀ duty ∈ house.duties, duty.isInstall = false →
        house.slot = lastOf house.runs.length) ∧
      (∀ position now runId next, house.move? (.serve position now runId) = some next →
        ∀ run, run + 1 < house.runs.length → next.runs[run]? = house.runs[run]?) := by
  have orderly := season.orderly
  have accounted := season.accounted
  refine ⟨orderly.countP_isGoing_le, fun position now runId next moved starts => ?_,
    fun position request run totalWork accepts => ?_,
    ⟨_, accounted.inOrder, fun run job found => ?_, fun run report stored => ?_, accounted.last⟩,
    fun duty member settled => ?_, fun position now runId next moved run earlier => ?_⟩
  · have ended := (change_of_move? moved).ended_of_starts orderly starts
    exact ⟨ended, accounted.stored_of_ended ended⟩
  · have last : run + 1 = house.runs.length :=
      orderly.fits (.install run totalWork) (mem_duties accepts)
    refine ⟨last, fun earlier job before found => ?_⟩
    have isOver := orderly.earlier found (by omega)
    exact ⟨isOver, by simp [Job.isGoing, Job.hasStored_of_isOver isOver]⟩
  · rw [← accounted.upTo found, Job.isGoing, Bool.not_eq_false']
  · obtain ⟨job, found, name, state, -⟩ := accounted.own stored
    exact ⟨job, found, name, state⟩
  · have settled : house.duties.countP Duty.isInstall = 0 := by
      simp [eq_singleton_of_mem member orderly.alone, settled]
    rw [orderly.slot, settled, Nat.sub_zero]
  · exact (change_of_move? moved).eq_of_earlier orderly rfl earlier

end Seasons

/-- Two runs of a note, the second one submitted when the first one is over, and an abort that is on
its way to it. -/
theorem second_run_succeeds_first :
    ∃ past house next future last, bare.Season past house ∧
      house.move? (.serve 1 0 "second") = some next ∧ house.runs.length < next.runs.length ∧
      (∀ job ∈ house.runs, job.isOver = true) ∧ next.Season future last ∧
      last.runs.countP Job.isGoing ≤ 1 ∧ last.slot = lastOf 2 ∧
      ∃ report, (0, report) ∈ storedIn (past ++ [⟨house, .serve 1 0 "second"⟩] ++ future) ∧
        last.lastReport = some report := by
  have rehearsed : rehearseAround
      (Move.asking (Request.submission ⟨none, [.comment "first"]⟩) 0 4 "first" ++
        List.replicate 25 (Move.work 0 0) ++
        Move.asking (Request.submission ⟨none, [.comment "second"]⟩) 1 2 "second")
      (.serve 1 0 "second")
      (.serve 1 0 "second" :: .work 1 0 :: Move.asking (Request.plain "abort") 2 1 "")
      (fun _ house next _ last => house.runs.length == 1 && next.runs.length == 2 &&
        last.runs.length == 2 && last.runs[1]?.any Job.isGoing && last.lastReport.isSome &&
        last.duties.any fun duty => !duty.isInstall) = true := by
    with_unfolding_all decide
  obtain ⟨past, house, next, future, last, season, moved, later, test⟩ :=
    exists_of_rehearseAround rehearsed
  simp only [Bool.and_eq_true, beq_iff_eq, List.any_eq_true, Bool.not_eq_true',
    Option.any_eq_true, Option.isSome_iff_exists] at test
  obtain ⟨⟨⟨⟨⟨one, two⟩, both⟩, job, found, goes⟩, report, shown⟩, duty, member, plain⟩ := test
  have starts : house.runs.length < next.runs.length := by omega
  obtain ⟨-, begins, -⟩ := runs_succeed_one_another season
  obtain ⟨ended, -⟩ := begins 1 0 "second" next moved starts
  obtain ⟨going, -, -, ⟨count, inOrder, upTo, own, newest⟩, current, -⟩ :=
    runs_succeed_one_another ((season.move moved).append later)
  have notYet : ¬ 1 < count := fun stored => by simp [(upTo 1 job found).mpr stored] at goes
  rw [newest, Option.map_eq_some_iff] at shown
  obtain ⟨⟨run, report'⟩, latest, rfl⟩ := shown
  have stored := List.mem_of_getLast? latest
  have within : run ∈ List.range count := inOrder ▸ List.mem_map_of_mem stored
  obtain rfl : run = 0 := by
    rw [List.mem_range] at within
    omega
  refine ⟨past, house, next, future, last, season, moved, starts, ended, later, going, ?_,
    report', stored, ?_⟩
  · rw [current duty member plain, both]
  · rw [newest, latest]
    rfl

end House

end Scan
