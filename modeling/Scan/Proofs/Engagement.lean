import Scan.Proofs.Admission
import Scan.Proofs.Exclusion

/-!
# The runs of a house

Whatever goes on in a house, the worker of every run lives a life of its own on the board of its
job: requests do to the board only what others may do to it. So all that is known of the life of a
worker is known of every run of a daemon.
-/

namespace Scan

/-! ## Engagements -/

/-- What a worker has come to on a board, from a worker and a board at an earlier moment on. The
state of the run is an active one as long as the worker has it still to set, and then the one that
its report says. -/
structure Engagement (origin : Worker Float) (first : Board) (tasks : List (Task Float))
    (board : Board) (worker : Worker Float) : Prop where
  life : ∃ deeds : List (Deed Float), deeds.map (fun deed => deed.task) = tasks ∧
    Life Board.Foreign first origin deeds board worker
  isSteady : worker.IsSteady
  stage : Worker.Stage board worker
  current : board.run.isActive = true ↔ worker.IsOpen
  state : ¬ worker.IsOpen → ∃ report, worker.report = some report ∧ board.run = report.state

namespace Engagement

variable {origin worker next : Worker Float} {first board after : Board}
variable {tasks rest : List (Task Float)} {task : Task Float} {reply : Option (Reply Float)}

/-- An engagement can be followed from any moment on. -/
theorem restart (engagement : Engagement origin first tasks board worker) :
    Engagement worker board [] board worker :=
  { engagement with life := ⟨[], rfl, .begin⟩ }

/-- Others may do to the board what they do not do to the worker. -/
theorem wait (engagement : Engagement origin first tasks board worker)
    (foreign : board.Foreign after) : Engagement origin first tasks after worker := by
  obtain ⟨⟨deeds, same, life⟩, steady, stage, current, state⟩ := engagement
  refine ⟨⟨deeds, same, .wait life foreign⟩, steady, stage.of_work_eq foreign.work, ?_,
    fun ended => ?_⟩
  · rw [foreign.isActive_eq, current]
  · obtain ⟨report, reported, same⟩ := state ended
    refine ⟨report, reported, ?_⟩
    rcases foreign.run with unchanged | ⟨active, -⟩
    · rw [unchanged, same]
    · exact absurd (current.mp active) ended

/-- A worker whose run is over leaves the state of the run as it is. -/
theorem run_of_over (engagement : Engagement origin first tasks board worker)
    (ended : ¬ worker.IsOpen) (agenda : worker.agenda = task :: rest)
    (outcome : Worker.Outcome board worker task rest reply after next) :
    after.run = board.run ∧ ¬ next.IsOpen ∧ next.report = worker.report := by
  obtain ⟨report, -, suffix⟩ := engagement.stage.exists_report ended
  have shorter : rest <:+ [.announce (.stateChanged report.state), .announce (.finished report)] :=
    (List.suffix_cons task rest).trans (agenda ▸ suffix)
  obtain ⟨event, rfl⟩ := Worker.exists_event_of_suffix (agenda ▸ suffix) List.mem_cons_self
  cases outcome with
  | sound _ spawns =>
      cases spawns with
      | announce => exact ⟨rfl, Worker.not_isOpen_of_suffix shorter, rfl⟩
  | broken _ fails => cases fails
  | cleaning _ _ spawns =>
      cases spawns with
      | announce =>
          exact ⟨rfl, Worker.not_isOpen_of_suffix ((Worker.unwind_suffix _).trans shorter), rfl⟩

/-- A step of the worker is a step of its life. -/
theorem work (engagement : Engagement origin first tasks board worker)
    (agenda : worker.agenda = task :: rest)
    (stepped : worker.step? board reply = some (after, next)) :
    Engagement origin first (tasks ++ [task]) after next := by
  obtain ⟨deeds, same, life⟩ := engagement.life
  have outcome := Worker.outcome_of_step? engagement.isSteady agenda stepped
  have goesOn : (after.run.isActive = true ↔ next.IsOpen) ∧
      (¬ next.IsOpen → ∃ report, next.report = some report ∧ after.run = report.state) := by
    by_cases isOpen : worker.IsOpen
    · exact outcome.isOpen_iff agenda isOpen engagement.stage (engagement.current.mpr isOpen)
    · obtain ⟨run, ended, reported⟩ := engagement.run_of_over isOpen agenda outcome
      rw [run, reported]
      exact ⟨iff_of_false (mt engagement.current.mp isOpen) ended,
        fun _ => engagement.state isOpen⟩
  exact ⟨⟨deeds ++ [⟨task, reply⟩], by simp [same], .work life agenda stepped⟩, outcome.isSteady,
    outcome.stage agenda engagement.stage, goesOn.1, goesOn.2⟩

end Engagement

/-! ## Jobs -/

/-- The task that the worker of a job does next. -/
def Job.task? (job : Job) : Option (Task Float) :=
  match job.phase with
  | .executing worker => worker.agenda.head?
  | _ => none

/-- Whether a move is one of a worker. -/
def Move.isWork : Move → Bool
  | .work .. => true
  | _ => false

/-- The task that the worker of a run does in a happening. -/
def Happening.task? (happening : Happening) (run : Nat) : Option (Task Float) :=
  match happening.move with
  | .work other _ => if other = run then happening.house.runs[run]?.bind Job.task? else none
  | _ => none

/-- What the worker of a run does in some happenings. -/
def tasksOf (run : Nat) (past : List Happening) : List (Task Float) :=
  past.filterMap (·.task? run)

/-- Whether a worker is the one of a run at a phase; one that has nothing left to do is
forgotten. -/
def Phase.Employs : Phase → Worker Float → Prop
  | .pending, _ => False
  | .executing worker, other => worker = other
  | .closing, worker | .ended, worker => worker.agenda = []

namespace Job

/-- Whether the run of a job has come to what it is from a worker and a board on. -/
def IsEngaged (job : Job) (origin : Worker Float) (first : Board) (tasks : List (Task Float)) :
    Prop :=
  ∃ worker, job.phase.Employs worker ∧
    Engagement origin first tasks job.sequencer.board worker

/-- What a job has come to after some tasks of its worker: nothing at all, or what a run that begins
without requests can come to. -/
inductive Sound (job : Job) (tasks : List (Task Float)) : Prop where
  | waiting (pending : job.phase = .pending) (idle : job.sequencer.board.run = .idle)
      (quiet : job.sequencer.board.simulation = .idle) (nothing : tasks = [])
  | engaged (first : Board) (free : first.control = {})
      (engaged : job.IsEngaged (job.sequencer.worker job.runId) first tasks)

/-- What others do to a job: they make an access to its board, or none. -/
inductive Attended (job : Job) : Job → Prop where
  | stays : Attended job job
  | called {board : Board} (foreign : job.sequencer.board.Foreign board)
      (quiet : board.simulation = job.sequencer.board.simulation) :
      Attended job { job with sequencer := job.sequencer.withBoard board }

/-- What becomes of a job in a happening in which its worker does a task, or none. -/
inductive Goes (job : Job) : Option (Task Float) → Job → Prop where
  | attended {after : Job} (attended : job.Attended after) : Goes job none after
  | advances {after : Job} {before report : Option RunReport}
      (advances : job.Advances before after report) : Goes job job.task? after

variable {job after : Job} {origin : Worker Float} {first : Board} {tasks : List (Task Float)}
variable {task : Option (Task Float)}

theorem IsEngaged.goes (engaged : job.IsEngaged origin first tasks) (goes : job.Goes task after) :
    after.IsEngaged origin first (tasks ++ task.toList) := by
  obtain ⟨worker, employs, engagement⟩ := engaged
  cases goes with
  | attended attended =>
      rw [Option.toList_none, List.append_nil]
      cases attended with
      | stays => exact ⟨worker, employs, engagement⟩
      | called foreign => exact ⟨worker, employs, engagement.wait foreign⟩
  | advances advances =>
      cases advances with
      | begins pending | refused pending => simp [pending, Phase.Employs] at employs
      | works executing stepped =>
          rw [executing] at employs
          cases employs
          obtain ⟨task, rest, agenda, -⟩ := Worker.step?_cases stepped
          have does : job.task? = some task := by simp [task?, executing, agenda]
          rw [does]
          exact ⟨_, rfl, engagement.work agenda stepped⟩
      | stores executing done =>
          rw [executing] at employs
          cases employs
          have does : job.task? = none := by simp [task?, executing, done]
          rw [does]
          exact ⟨worker, done, by simpa using engagement⟩
      | leaves closing =>
          rw [closing] at employs
          have does : job.task? = none := by simp [task?, closing]
          rw [does]
          exact ⟨worker, employs, by simpa using engagement⟩

/-- The worker that a job has, or will have, is settled from the start. -/
theorem Goes.worker_eq (goes : job.Goes task after) :
    after.sequencer.worker after.runId = job.sequencer.worker job.runId := by
  cases goes with
  | attended attended => cases attended <;> rfl
  | advances advances => cases advances <;> rfl

/-- A run that is to begin is not refused. -/
theorem Sound.isTaken_eq_false (sound : job.Sound tasks) (pending : job.phase = .pending) :
    job.sequencer.isTaken = false := by
  cases sound with
  | waiting _ idle quiet =>
      rw [Sequencer.isTaken, idle, quiet]
      rfl
  | engaged first free engaged =>
      obtain ⟨_, employs, -⟩ := engaged
      simp [pending, Phase.Employs] at employs

/-- A run begins without requests. -/
theorem Sound.begin (sound : job.Sound tasks) (pending : job.phase = .pending)
    {before report : Option RunReport} (advances : job.Advances before after report) :
    ∃ first, first.control = {} ∧
      after.IsEngaged (job.sequencer.worker job.runId) first [] := by
  have free := sound.isTaken_eq_false pending
  cases advances with
  | @begins claimed worker _ begun =>
      simp only [Sequencer.beginRun, free, Bool.false_eq_true, if_false] at begun
      cases begun
      have isOpen : (job.sequencer.worker job.runId).IsOpen :=
        ⟨.report, by simp [Sequencer.worker, Worker.ofSteps], rfl⟩
      refine ⟨_, rfl, _, rfl, ⟨[], rfl, .begin⟩, Worker.isSteady_ofSteps, Worker.stage_ofSteps ..,
        iff_of_true rfl isOpen, fun ended => absurd isOpen ended⟩
  | refused _ refused => simp [Sequencer.beginRun, free] at refused
  | works executing | stores executing => simp [pending] at executing
  | leaves closing => simp [pending] at closing

theorem Sound.goes (sound : job.Sound tasks) (goes : job.Goes task after) :
    after.Sound (tasks ++ task.toList) := by
  have same := goes.worker_eq
  have start := sound
  cases sound with
  | engaged first free engaged => exact .engaged first free (same ▸ engaged.goes goes)
  | waiting pending idle quiet nothing =>
      subst nothing
      cases goes with
      | attended attended =>
          cases attended with
          | stays => exact .waiting pending idle quiet rfl
          | called foreign unchanged =>
              refine .waiting pending ?_ (unchanged.trans quiet) rfl
              rcases foreign.run with same | ⟨active, -⟩
              · exact same.trans idle
              · simp [idle, RunState.isActive] at active
      | advances advances =>
          have does : job.task? = none := by simp [task?, pending]
          obtain ⟨first, free, engaged⟩ := start.begin pending advances
          rw [does]
          exact .engaged first free (same ▸ engaged)

end Job

/-! ## The runs of a house -/

namespace House

variable {house next : House} {move : Move}

/-- A request that has the job to itself only makes accesses to it. -/
theorem attended_attend {now : Instant} {runId : String} {duty : Duty} {run : Nat} {job : Job}
    (found : house.runs[run]? = some job) :
    ∃ after, (house.attend now runId duty).1.runs[run]? = some after ∧ job.Attended after := by
  have inBounds := (List.getElem?_eq_some_iff.mp found).1
  cases duty with
  | vet | decline | look =>
      refine ⟨job, ?_, .stays⟩
      simp only [attend]
      (try split) <;> (try split) <;> exact found
  | install => exact ⟨job, found, .stays⟩
  | start sequence =>
      refine ⟨job, ?_, .stays⟩
      simp only [attend]
      split
      · exact (List.getElem?_append_left inBounds).trans found
      · exact found
  | call call =>
      cases current : house.current? with
      | none => exact ⟨job, by simpa only [attend, current] using found, .stays⟩
      | some other =>
          obtain ⟨other, job'⟩ := other
          simp only [attend, current]
          by_cases same : other = run
          · subst same
            cases (current?_eq_some.mp current).2.symm.trans found
            exact ⟨_, List.getElem?_set_self inBounds,
              .called (call.foreign_step ..) (call.simulation_step ..)⟩
          · exact ⟨job, (List.getElem?_set_ne same).trans found, .stays⟩

/-- A request does to a run what others may do to it. -/
theorem Change.attended (change : house.Change move next)
    (request : move.isWork = false) {run : Nat} {job : Job}
    (found : house.runs[run]? = some job) :
    ∃ after, next.runs[run]? = some after ∧ job.Attended after := by
  cases change with
  | receives _ _ changed | enters _ _ _ _ changed | answers _ _ _ _ changed =>
      subst changed
      exact ⟨job, found, .stays⟩
  | attends _ _ changed =>
      subst changed
      exact attended_attend found
  | works _ moves => simp [moves, Move.isWork] at request

/-- What a move does to a run that was started before. -/
theorem Change.goes (change : house.Change move next) {run : Nat} {job : Job}
    (found : house.runs[run]? = some job) :
    ∃ after, next.runs[run]? = some after ∧
      job.Goes ((⟨house, move⟩ : Happening).task? run) after := by
  cases move with
  | receive | serve =>
      obtain ⟨after, found, attended⟩ := change.attended rfl found
      exact ⟨after, found, .attended attended⟩
  | work other now =>
      cases change with
      | receives _ moves | enters moves | attends moves | answers _ moves => cases moves
      | works plant moves found' advances changed =>
          cases moves
          subst changed
          by_cases same : other = run
          · subst same
            cases found'.symm.trans found
            have does : (⟨house, .work other now⟩ : Happening).task? other = job.task? := by
              simp [Happening.task?, found]
            rw [does]
            exact ⟨_, List.getElem?_set_self (List.getElem?_eq_some_iff.mp found).1,
              .advances advances⟩
          · have does : (⟨house, .work other now⟩ : Happening).task? run = none := by
              simp [Happening.task?, same]
            rw [does]
            exact ⟨job, (List.getElem?_set_ne same).trans found, .attended .stays⟩

/-- A request that has the job to itself starts a run only of a sequence that compiles. -/
theorem runs_attend (house : House) (now : Instant) (runId : String) (duty : Duty) :
    (house.attend now runId duty).1.runs.length = house.runs.length ∨
      ∃ sequence sequencer, duty = .start sequence ∧
        Sequencer.ofSequence sequence house.pollInterval = .ok sequencer ∧
        (house.attend now runId duty).1.runs =
          house.runs ++ [{ sequencer := sequencer, runId := runId }] := by
  cases duty with
  | vet =>
      left
      simp only [attend]
      split <;> (try split) <;> rfl
  | decline | look | install => exact .inl rfl
  | call call =>
      left
      simp only [attend]
      split
      · exact List.length_set ..
      · rfl
  | start sequence =>
      cases compiled : (Sequencer.ofSequence sequence house.pollInterval :
          Except _ (Sequencer Float)) with
      | error error =>
          left
          simp only [attend, compiled]
      | ok sequencer =>
          right
          refine ⟨sequence, sequencer, rfl, compiled, ?_⟩
          simp only [attend, compiled]

/-- A run that a move starts is a fresh one behind all others. -/
theorem Change.fresh (change : house.Change move next) {run : Nat} {job : Job}
    (found : next.runs[run]? = some job) (new : house.runs.length ≤ run) :
    run = house.runs.length ∧ job.phase = .pending ∧ job.sequencer.board = {} := by
  have inBounds := (List.getElem?_eq_some_iff.mp found).1
  cases change with
  | receives _ _ changed | enters _ _ _ _ changed | answers _ _ _ _ changed =>
      subst changed
      exact absurd (Nat.lt_of_lt_of_le inBounds new) (Nat.lt_irrefl run)
  | works _ _ _ _ changed =>
      subst changed
      rw [List.length_set] at inBounds
      exact absurd (Nat.lt_of_lt_of_le inBounds new) (Nat.lt_irrefl run)
  | @attends _ now runId _ duty _ _ changed =>
      subst changed
      change run < (house.attend now runId duty).1.runs.length at inBounds
      rcases house.runs_attend now runId duty with same | ⟨_, sequencer, -, compiled, runs⟩
      · omega
      · obtain ⟨-, -, made⟩ := Sequencer.ofSequence_eq_ok compiled
        rw [runs, List.length_append, List.length_singleton] at inBounds
        obtain rfl : run = house.runs.length := by omega
        change (house.attend now runId duty).1.runs[house.runs.length]? = some job at found
        rw [runs, List.getElem?_concat_length] at found
        cases found
        exact ⟨rfl, rfl, by rw [made]⟩

/-- What holds of the runs of a house after some happenings. -/
structure Peopled (house : House) (past : List Happening) : Prop where
  beyond : ∀ run, house.runs.length ≤ run → tasksOf run past = []
  sound : ∀ {run : Nat} {job : Job}, house.runs[run]? = some job → job.Sound (tasksOf run past)

theorem tasksOf_concat (run : Nat) (past : List Happening) (happening : Happening) :
    tasksOf run (past ++ [happening]) = tasksOf run past ++ (happening.task? run).toList := by
  cases does : happening.task? run <;> simp [tasksOf, does]

/-- Only a run that was started does anything. -/
theorem task?_eq_none_of_le {run : Nat} (new : house.runs.length ≤ run) :
    (⟨house, move⟩ : Happening).task? run = none := by
  cases move with
  | receive | serve => rfl
  | work other =>
      simp only [Happening.task?]
      split
      · rw [List.getElem?_eq_none new]
        rfl
      · rfl

/-- No run is lost. -/
theorem Change.length_le (change : house.Change move next) :
    house.runs.length ≤ next.runs.length := by
  by_contra fewer
  rw [Nat.not_le] at fewer
  obtain ⟨after, found, -⟩ := change.goes (List.getElem?_eq_getElem fewer)
  exact absurd (List.getElem?_eq_some_iff.mp found).1 (Nat.lt_irrefl _)

theorem Peopled.turn {past : List Happening} (peopled : house.Peopled past)
    (change : house.Change move next) : next.Peopled (past ++ [⟨house, move⟩]) := by
  refine ⟨fun run new => ?_, fun {run job} found => ?_⟩
  · have new := Nat.le_trans change.length_le new
    rw [tasksOf_concat, peopled.beyond run new, task?_eq_none_of_le new]
    rfl
  · rcases Nat.lt_or_ge run house.runs.length with old | new
    · obtain ⟨after, found', goes⟩ := change.goes (List.getElem?_eq_getElem old)
      cases found'.symm.trans found
      rw [tasksOf_concat]
      exact (peopled.sound (List.getElem?_eq_getElem old)).goes goes
    · obtain ⟨-, pending, fresh⟩ := change.fresh found new
      rw [tasksOf_concat, peopled.beyond run new, task?_eq_none_of_le new]
      exact .waiting pending (by rw [fresh]) (by rw [fresh]) rfl

section Seasons

variable {config : Config Float} {opened : Instant} {past future : List Happening} {last : House}

/-- The runs of a daemon are sound from its start on. -/
theorem Season.peopled (season : (Daemon.ofConfig config opened).house.Season past house) :
    house.Peopled past := by
  induction season with
  | opening => exact ⟨fun _ _ => rfl, fun found => by cases found⟩
  | move _ moved ih => exact ih.turn (change_of_move? moved)

/-- A run that has begun can be followed through all that comes after. -/
theorem Season.followed (season : house.Season future last) {run : Nat} {job : Job}
    {origin : Worker Float} {first : Board} {tasks : List (Task Float)}
    (found : house.runs[run]? = some job) (engaged : job.IsEngaged origin first tasks) :
    ∃ after, last.runs[run]? = some after ∧
      after.IsEngaged origin first (tasks ++ tasksOf run future) := by
  induction season with
  | opening => exact ⟨job, found, by simpa [tasksOf] using engaged⟩
  | move _ moved ih =>
      obtain ⟨halfway, found, engaged⟩ := ih
      obtain ⟨after, found, goes⟩ := (change_of_move? moved).goes found
      refine ⟨after, found, ?_⟩
      rw [tasksOf_concat, ← List.append_assoc]
      exact engaged.goes goes

end Seasons

end House

end Scan
