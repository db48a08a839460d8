import Scan.Proofs.Abort
import Scan.Proofs.Engagement

/-!
# Recalled runs

A client may ask a daemon to abort its job. If the worker of the job has begun and not ended yet,
the request reaches it: the worker starts none of the top-level steps whose safe points it has still
to pass. A request that comes before the worker has begun finds no run to abort, and is lost.
-/

namespace Scan

/-! ## Steps behind their safe points -/

section Upcoming

variable {α : Type}

/-- The top-level steps that a worker starts before it comes to a safe point. -/
def Worker.upcoming : List (Task α) → List Nat
  | [] => []
  | task :: rest => Mark.opened.does task ++ if task.isSafePoint then [] else upcoming rest

/-- The top-level step in progress after some tasks: the last one that was started, unless it is
over. -/
def stepAmong (tasks : List (Task α)) : Option Nat :=
  tasks.foldl (fun before task => task.stepAfter before) none

theorem inProgress_eq (past : List (Deed α)) :
    inProgress past = stepAmong (past.map fun deed => deed.task) := by
  rw [inProgress, stepAmong, List.foldl_map]

namespace Worker

/-- The top-level steps that a worker is bound to start: none once it has failed. -/
def imminent (worker : Worker α) : List Nat :=
  if worker.failure.isSome then [] else upcoming worker.agenda

theorem imminent_of_sound {worker : Worker α} (sound : worker.failure = none) :
    worker.imminent = upcoming worker.agenda := by
  simp [imminent, sound]

theorem imminent_of_failed {worker : Worker α} (failed : worker.failure.isSome = true) :
    worker.imminent = [] := by
  simp [imminent, failed]

theorem length_upcoming (agenda : List (Task α)) :
    (upcoming agenda).length = exposure .opening agenda := by
  induction agenda with
  | nil => rfl
  | cons task rest ih =>
      have own : (Mark.opened.does task).length = task.reach .opening := by cases task <;> rfl
      rw [upcoming, List.length_append, own, exposure_cons]
      split
      · rfl
      · rw [ih]

theorem upcoming_append_isPrefix (front rest : List (Task α)) :
    upcoming (front ++ rest) <+: upcoming front ++ upcoming rest := by
  induction front with
  | nil => exact List.prefix_rfl
  | cons task front ih =>
      rw [List.cons_append, upcoming, upcoming, List.append_assoc]
      refine (List.prefix_append_right_inj _).mpr ?_
      split
      · exact List.nil_prefix
      · exact ih

/-- What a task puts in front of the others starts no top-level step before a safe point. -/
theorem upcoming_of_spawns [Scalar α] {board after : Board} {worker : Worker α} {task : Task α}
    {reply : Option (Reply α)} {more : List (Task α)}
    (spawns : task.Spawns board worker reply after more) (goesOn : task.isSafePoint = false) :
    upcoming more = [] := by
  have within : (task.isFeat .opening).toNat + exposure .opening more ≤ task.reach .opening :=
    Task.isFeat_add_exposure_le spawns goesOn
  have own : task.reach .opening = (task.isFeat .opening).toNat := by
    cases task with
    | resolve _ quantity => cases quantity <;> rfl
    | _ => rfl
  rw [← List.length_eq_zero_iff, length_upcoming]
  omega

end Worker

/-- Once an abort is requested a worker starts only the top-level steps whose safe points it has
passed. -/
theorem Life.opened_isPrefix [Scalar α] {others : Board → Board → Prop}
    {board now : Board} {worker current : Worker α} {past : List (Deed α)}
    (life : Life others board worker past now current) (steady : worker.IsSteady)
    (keeps : ∀ {now after : Board}, others now after →
      now.control.aborted = true → after.control.aborted = true)
    (aborted : board.control.aborted = true) :
    (Ledger.steps α .opened).done past ++ current.imminent <+: worker.imminent := by
  induction life with
  | begin => exact List.prefix_rfl
  | wait _ _ ih => exact ih
  | @work past now after current _ task rest reply life agenda stepped ih =>
      rw [Ledger.done_append, Ledger.done_singleton, List.append_assoc]
      refine List.IsPrefix.trans ((List.prefix_append_right_inj _).mpr ?_) ih
      change Mark.opened.does task ++ _ <+: _
      cases Worker.outcome_of_step? (life.isSteady steady) agenda stepped with
      | @sound _ more sound spawns =>
          have goesOn := Task.isSafePoint_of_spawns spawns (life.aborted steady keeps aborted)
          have joined := Worker.upcoming_append_isPrefix more rest
          rw [Worker.upcoming_of_spawns spawns goesOn, List.nil_append] at joined
          rw [Worker.imminent_of_sound sound, Worker.imminent_of_sound (by simp [sound]), agenda,
            Worker.upcoming, goesOn, Worker.agenda_withAgenda]
          exact (List.prefix_append_right_inj _).mpr joined
      | broken sound fails =>
          rw [Worker.imminent_of_sound sound, Worker.imminent_of_failed rfl, agenda,
            Worker.upcoming, List.append_nil]
          exact List.prefix_append _ _
      | cleaning failed cleans =>
          have nothing : Mark.opened.does task = [] := by
            cases task <;> first | rfl | exact absurd cleans Bool.false_ne_true
          rw [nothing, Worker.imminent_of_failed (by simpa using failed)]
          exact List.nil_prefix

end Upcoming

/-! ## Aborts in a house -/

/-- The top-level steps that a run starts in some happenings. -/
def startedIn (run : Nat) (past : List Happening) : List Nat :=
  (tasksOf run past).flatMap Mark.opened.does

/-- Whether a request is just about to abort the job. -/
def Errand.aborts (errand : Errand) : Bool :=
  match errand.stage with
  | .atJob (.call .abort) => true
  | _ => false

theorem Errand.eq_of_aborts {errand : Errand} (aborts : errand.aborts = true) :
    errand = ⟨errand.request, .atJob (.call .abort)⟩ := by
  unfold Errand.aborts at aborts
  split at aborts
  · rename_i stage
    rw [← stage]
  · cases aborts

namespace Job

variable {job : Job} {tasks : List (Task Float)}

/-- A run whose state is active is in the hands of its worker. -/
theorem Sound.executing_of_active (sound : job.Sound tasks)
    (active : job.sequencer.state.isActive = true) :
    ∃ first worker, first.control = {} ∧ job.phase = .executing worker ∧
      Engagement (job.sequencer.worker job.runId) first tasks job.sequencer.board worker := by
  cases sound with
  | waiting _ idle => simp [Sequencer.state, idle, RunState.isActive] at active
  | engaged first free engaged =>
      obtain ⟨worker, employs, engagement⟩ := engaged
      obtain ⟨task, member, -⟩ := engagement.current.mp active
      unfold Phase.Employs at employs
      split at employs
      · cases employs
      · rename_i executing
        cases employs
        exact ⟨first, _, free, executing, engagement⟩
      all_goals simp [employs] at member

end Job

/-- A worker that has begun is bound to start one top-level step at the most, and none within
another one. -/
theorem Engagement.imminent_le {sequencer : Sequencer Float} {runId : String} {first board : Board}
    {worker : Worker Float} {tasks : List (Task Float)}
    (engagement : Engagement (sequencer.worker runId) first tasks board worker) :
    worker.imminent.length ≤ 1 ∧
      ∀ step, stepAmong tasks = some step → worker.imminent = [] := by
  obtain ⟨deeds, rfl, life⟩ := engagement.life
  have spaced : Worker.Spaced .opening worker.agenda :=
    life.spaced Worker.isSteady_ofSteps (Worker.spaced_ofSteps .opening ..)
  have stands := life.stands Worker.isSteady_ofSteps (Worker.stands_ofSteps ..)
  have within : worker.imminent.length ≤ Worker.exposure .opening worker.agenda := by
    rw [← Worker.length_upcoming, Worker.imminent]
    split
    · exact Nat.zero_le _
    · exact Nat.le_refl _
  refine ⟨Nat.le_trans within spaced.exposure_le, fun step current => ?_⟩
  rw [inProgress_eq, current] at stands
  rw [stands.exposure_opening spaced] at within
  exact List.length_eq_zero_iff.mp (Nat.le_zero.mp within)

namespace House

variable {house next last : House} {config : Config Float} {opened : Instant}
variable {past future : List Happening} {position : Nat} {now : Instant} {runId : String}
variable {request : Request} {run : Nat} {job : Job}

/-- A control call acts on the run that was started last. -/
theorem Orderly.current?_eq (orderly : house.Orderly) {duty : Duty}
    (found : house.errands[position]? = some ⟨request, .atJob duty⟩)
    (settled : duty.isInstall = false) (latest : house.runs[run]? = some job)
    (last : run + 1 = house.runs.length) : house.current? = some (run, job) := by
  have nothing : house.duties.countP Duty.isInstall = 0 := by
    simp [eq_singleton_of_mem (mem_duties found) orderly.alone, settled]
  refine current?_eq_some.mpr ⟨?_, latest⟩
  rw [orderly.slot, nothing, Nat.sub_zero, lastOf_eq_some.mpr last]

/-- An abort of a run that has begun is requested on its board. -/
theorem requested_of_abort (current : house.current? = some (run, job))
    (active : job.sequencer.state.isActive = true)
    (found : house.errands[position]? = some ⟨request, .atJob (.call .abort)⟩)
    (handled : house.move? (.serve position now runId) = some next) :
    ∃ board, job.sequencer.board.Foreign board ∧ board.control.aborted = true ∧
      next.runs[run]? = some { job with sequencer := job.sequencer.withBoard board } := by
  have active : job.sequencer.board.run.isActive = true := active
  have foreign := Call.foreign_step job.sequencer.totalWork now job.sequencer.board .abort
  simp only [Call.step, active, if_true] at foreign
  simp only [move?, found, Option.bind_some, serve?, attend, current, Call.step, active, if_true]
    at handled
  cases handled
  exact ⟨_, foreign, rfl, List.getElem?_set_self
    (List.getElem?_eq_some_iff.mp (current?_eq_some.mp current).2).1⟩

/-- An abort that finds no run that has begun and not ended changes no run. -/
theorem runs_of_abort_inactive
    (found : house.errands[position]? = some ⟨request, .atJob (.call .abort)⟩)
    (inactive : ∀ job ∈ house.runs, job.sequencer.state.isActive = false)
    (handled : house.move? (.serve position now runId) = some next) :
    next.runs = house.runs := by
  simp only [move?, found, Option.bind_some, serve?, attend] at handled
  split at handled
  · rename_i run job current
    obtain ⟨-, found⟩ := current?_eq_some.mp current
    have inactive : job.sequencer.board.run.isActive = false :=
      inactive job (List.mem_of_getElem? found)
    simp only [Call.step, inactive, Bool.false_eq_true, if_false] at handled
    cases handled
    obtain ⟨inBounds, same⟩ := List.getElem?_eq_some_iff.mp found
    subst same
    exact List.set_getElem_self inBounds
  · cases handled
    rfl

/-- An abort that finds a run that has begun and not ended is never lost: it stays requested, the
run starts no top-level step after it but one that its worker had passed the safe point of, and
nothing holds the worker from then on. An abort that finds no such run changes no run. -/
theorem aborts_of_active_runs_are_heeded
    (season : (Daemon.ofConfig config opened).house.Season past house)
    (found : house.errands[position]? = some ⟨request, .atJob (.call .abort)⟩)
    (handled : house.move? (.serve position now runId) = some next)
    (later : next.Season future last) :
    (∀ run job, house.runs[run]? = some job → job.sequencer.state.isActive = true →
      ∃ worker after, job.phase = .executing worker ∧ last.runs[run]? = some after ∧
        startedIn run future <+: worker.imminent ∧ worker.imminent.length ≤ 1 ∧
        (∀ step, stepAmong (tasksOf run past) = some step → worker.imminent = []) ∧
        after.sequencer.board.control.aborted = true ∧
        (after.isOver = false → ∀ now, ∃ later, last.move? (.work run now) = some later)) ∧
      ((∀ job ∈ house.runs, job.sequencer.state.isActive = false) → next.runs = house.runs) := by
  refine ⟨fun run job latest active => ?_, fun inactive =>
    runs_of_abort_inactive found inactive handled⟩
  have orderly := season.orderly
  obtain ⟨first, worker, -, executing, engagement⟩ :=
    (season.peopled.sound latest).executing_of_active active
  have going : job.isOver = false := by simp [Job.isOver, executing]
  have current := orderly.current?_eq found rfl latest (orderly.last_of_not_isOver latest going)
  obtain ⟨board, foreign, asked, aborted⟩ := requested_of_abort current active found handled
  -- the worker is followed from the board on which the abort is requested
  have engaged : Job.IsEngaged { job with sequencer := job.sequencer.withBoard board }
      worker board [] :=
    ⟨worker, executing ▸ rfl, (engagement.wait foreign).restart⟩
  obtain ⟨after, found', current', employs, engagement'⟩ := later.followed aborted engaged
  obtain ⟨deeds, same, life⟩ := engagement'.life
  have keeps := fun {now after : Board} (other : now.Foreign after) => other.aborted
  have requested := life.aborted engagement.isSteady keeps asked
  obtain ⟨atMostOne, within⟩ := engagement.imminent_le
  refine ⟨worker, after, executing, found', ?_, atMostOne, within, requested, fun goesOn now =>
    exists_move?_work found' goesOn (fun worker executing => ?_) now⟩
  · have opened := life.opened_isPrefix engagement.isSteady keeps asked
    rw [startedIn, ← List.nil_append (tasksOf run future), ← same, List.flatMap_map]
    exact (List.prefix_append _ _).trans opened
  · exact Worker.next_ne_held (by simp [RunControl.blocks, requested])

/-- An abort within the first of two notes: it stays requested, and the second note is never
started. -/
theorem abort_within_first_note_stays_requested :
    ∃ past house next future last, bare.Season past house ∧
      stepAmong (tasksOf 0 past) = some 1 ∧ house.move? (.serve 1 0 "") = some next ∧
      next.Season future last ∧ startedIn 0 future = [] ∧
      ∃ job, last.runs[0]? = some job ∧ job.sequencer.board.control.aborted = true ∧
        job.sequencer.state = .aborted := by
  have rehearsed : rehearseAround
      (Move.asking (Request.submission ⟨none, [.comment "first", .comment "second"]⟩) 0 4 "run" ++
        List.replicate 10 (Move.work 0 0) ++ Move.asking (Request.plain "abort") 1 1 "")
      (.serve 1 0 "") (List.replicate 17 (Move.work 0 0))
      (fun past house _ _ last => house.errands[1]?.any Errand.aborts &&
        house.runs[0]?.any (fun job => job.sequencer.state.isActive) &&
        stepAmong (tasksOf 0 past) == some 1 &&
        last.runs[0]?.any fun job => job.sequencer.state == .aborted) = true := by
    decide +kernel
  obtain ⟨past, house, next, future, last, season, moved, later, test⟩ :=
    exists_of_rehearseAround rehearsed
  simp only [Bool.and_eq_true, beq_iff_eq, Option.any_eq_true] at test
  obtain ⟨⟨⟨⟨errand, found, aborts⟩, job, begun, active⟩, within⟩, job', ended, state⟩ := test
  rw [Errand.eq_of_aborts aborts] at found
  obtain ⟨heeded, -⟩ := aborts_of_active_runs_are_heeded season found moved later
  obtain ⟨worker, after, -, found', starts, -, imminent, requested, -⟩ := heeded 0 job begun active
  cases found'.symm.trans ended
  rw [imminent 1 within, List.prefix_nil] at starts
  exact ⟨past, house, next, future, last, season, within, moved, later, starts, _, found',
    requested, RunState.eq_of_beq state⟩

/-- An abort that is answered after a run of a note was accepted, but that comes before its worker
has begun: the run starts its step all the same, and is finished. -/
theorem abort_before_run_begins_is_lost :
    ∃ past house next future last, bare.Season past house ∧
      (∃ value, house.errands[0]?.bind Errand.answer? = some value) ∧
      (∃ request, house.errands[1]? = some ⟨request, .atJob (.call .abort)⟩) ∧
      (∃ job, house.runs[0]? = some job ∧ job.sequencer.state = .idle) ∧
      house.move? (.serve 1 0 "") = some next ∧ next.Season future last ∧
      (∃ value, last.errands[1]?.bind Errand.answer? = some value) ∧ startedIn 0 future = [1] ∧
      ∃ job, last.runs[0]? = some job ∧ job.sequencer.state = .finished := by
  have rehearsed : rehearseAround
      (Move.asking (Request.submission ⟨none, [.comment "note"]⟩) 0 4 "run" ++
        Move.asking (Request.plain "abort") 1 1 "")
      (.serve 1 0 "") (.serve 1 0 "" :: List.replicate 25 (Move.work 0 0))
      (fun _ house _ future last => (house.errands[0]?.bind Errand.answer?).isSome &&
        house.errands[1]?.any Errand.aborts &&
        house.runs[0]?.any (fun job => job.sequencer.state == .idle) &&
        (last.errands[1]?.bind Errand.answer?).isSome && startedIn 0 future == [1] &&
        last.runs[0]?.any fun job => job.sequencer.state == .finished) = true := by
    decide +kernel
  obtain ⟨past, house, next, future, last, season, moved, later, test⟩ :=
    exists_of_rehearseAround rehearsed
  simp only [Bool.and_eq_true, beq_iff_eq, Option.any_eq_true, Option.isSome_iff_exists] at test
  obtain ⟨⟨⟨⟨⟨accepted, errand, found, aborts⟩, job, pending, idle⟩, answered⟩, starts⟩,
    job', ended, state⟩ := test
  rw [Errand.eq_of_aborts aborts] at found
  exact ⟨past, house, next, future, last, season, accepted, ⟨_, found⟩,
    ⟨job, pending, RunState.eq_of_beq idle⟩, moved, later, answered, starts,
    ⟨job', ended, RunState.eq_of_beq state⟩⟩

end House

end Scan
