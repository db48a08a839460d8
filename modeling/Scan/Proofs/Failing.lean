import Scan.Proofs.Consistency
import Scan.Proofs.Course

/-!
# What makes a run fail

A call to a collaborator that comes back with an error is the last one of its run: from then on the
worker only cleans up, is never held and comes to its report, which names this error. The other way
round a run fails only over such a call or over a wait that took longer than it may.
-/

namespace Scan

variable {α : Type}

/-! ## Calls that come back with an error -/

/-- The error that the call of a deed came back with, as the outside is to see it. -/
def Deed.callError? (deed : Deed α) : Option ErrorInfo :=
  match deed.task.asks?, deed.reply with
  | some (.evaluate _), some (.evaluated (.error source)) =>
      some ⟨.invalidInput, "cannot evaluate '" ++ source.expression ++ "': " ++ source.reason⟩
  | some (.read channel), some (.found (.error source))
  | some (.write channel _), some (.wrote (.error source)) =>
      some ⟨.ioError, "live I/O on '" ++ channel ++ "' failed: " ++ source.message⟩
  | _, _ => none

theorem Deed.code_of_callError? {deed : Deed α} {info : ErrorInfo}
    (broken : deed.callError? = some info) : info.code ≠ .interrupted := by
  unfold callError? at broken
  split at broken <;> cases broken <;> exact nofun

namespace Task

variable {board : Board} {task : Task α} {reply : Option (Reply α)} {error : ScanError}

/-- Cleaning up calls no collaborator. -/
theorem asks?_of_cleansUp (cleans : task.cleansUp = true) : task.asks? = none := by
  cases task <;> first | rfl | exact absurd cleans Bool.false_ne_true

/-- A task that succeeds has not come back with an error. -/
theorem callError?_of_spawns [Scalar α] {after : Board} {worker : Worker α} {more : List (Task α)}
    (spawns : task.Spawns board worker reply after more) :
    (⟨task, reply⟩ : Deed α).callError? = none := by
  cases spawns <;> rfl

/-- A task that comes back with an error fails with this error. -/
theorem info_of_callError? {info : ErrorInfo}
    (broken : (⟨task, reply⟩ : Deed α).callError? = some info) (fails : task.Fails board reply error) :
    error.info = info := by
  cases fails <;> cases broken <;> rfl

/-- A task fails over a call that came back with an error, over an abort or over the limit of a
wait, unless it refuses to run a step a second time. -/
theorem cause_of_fails (fails : task.Fails board reply error)
    (fresh : ∀ id command, task = .start id command →
      (board.monitor id).status.canAdvance .running = true) :
    (⟨task, reply⟩ : Deed α).callError? = some error.info ∨ error = .interrupted ∨
      ∃ poll since limit now, task = .checkLimit poll since limit ∧ reply = some (.told now) ∧
        limit.nanoseconds ≤ now - since ∧ error = .timeout poll.channel limit.seconds := by
  cases fails with
  | evaluated | baseline | write | probe => exact .inl rfl
  | safePoint | heedAbort => exact .inr (.inl rfl)
  | timeout poll since limit now expired =>
      exact .inr (.inr ⟨poll, since, limit, now, rfl, rfl, expired, rfl⟩)
  | refused id command used => simp [fresh id command rfl] at used

/-! ## The beginning of a wait -/

/-- The wait that a task belongs to, and when it began. -/
def since? : Task α → Option (Poll α × Instant)
  | .probe poll since | .checkLimit poll since _ | .restPoll poll since => some (poll, since)
  | _ => none

end Task

namespace Worker

variable {task : Task α}

theorem since?_of_mem_pollTasks {poll : Poll α} (member : task ∈ pollTasks poll) :
    task.since? = none := by
  simp only [pollTasks, List.mem_cons, List.not_mem_nil, or_false] at member
  rcases member with rfl | rfl | rfl | rfl | rfl <;> rfl

theorem since?_of_mem_writeTasks {id : Nat} {channel : String} {completion : Completion α}
    {value : α} (member : task ∈ writeTasks id channel completion value) : task.since? = none := by
  rcases List.mem_cons.mp member with rfl | member
  · rfl
  · split at member
    · exact since?_of_mem_pollTasks member
    · cases member

theorem since?_of_mem_purposeTasks {id : Nat} {value : α} {purpose : Purpose α}
    (member : task ∈ purposeTasks id value purpose) : task.since? = none := by
  cases purpose with
  | assign => exact since?_of_mem_writeTasks member
  | await =>
      simp only [purposeTasks] at member
      split at member
      · cases List.mem_singleton.mp member
        rfl
      · exact since?_of_mem_pollTasks member

theorem since?_of_mem_nestedTasks {commands : List (Nat × Command α)}
    (member : task ∈ nestedTasks commands) : task.since? = none := by
  simp only [nestedTasks, List.mem_flatMap, List.mem_cons, List.not_mem_nil, or_false] at member
  obtain ⟨_, _, rfl | rfl⟩ := member <;> rfl

theorem since?_of_mem_commandTasks {id : Nat} {command : Command α}
    (member : task ∈ commandTasks id command) : task.since? = none := by
  cases command with
  | group => exact since?_of_mem_nestedTasks member
  | comment => cases member
  | delay | set | wait | loop =>
      simp only [commandTasks, List.mem_cons, List.not_mem_nil, or_false] at member
      rcases member with rfl | rfl | rfl | rfl | rfl <;> rfl

theorem since?_of_mem_iterationTasks [Scalar α] {id : Nat} {sweep : Sweep α}
    {body : List (Command α)} {iteration : Nat}
    (member : task ∈ iterationTasks id sweep body iteration) : task.since? = none := by
  simp only [iterationTasks, List.mem_append, List.mem_cons, List.not_mem_nil, or_false] at member
  rcases member with (rfl | member) | rfl | rfl | rfl
  · rfl
  · exact since?_of_mem_writeTasks member
  all_goals rfl

/-- A wait goes on with the time when it began, which is the time that it was told then. -/
theorem since?_of_spawns [Scalar α] {board after : Board} {worker : Worker α}
    {reply : Option (Reply α)} {more : List (Task α)} {next : Task α} {poll : Poll α}
    {since : Instant} (spawns : task.Spawns board worker reply after more) (member : next ∈ more)
    (waits : next.since? = some (poll, since)) :
    task.since? = some (poll, since) ∨ task = .armPoll poll ∧ reply = some (.told since) := by
  cases spawns with
  | armPoll =>
      simp only [List.mem_cons, List.not_mem_nil, or_false] at member
      rcases member with rfl | rfl <;> cases waits
      exact .inr ⟨rfl, rfl⟩
  | pollGoesOn =>
      simp only [List.mem_cons, List.not_mem_nil, or_false] at member
      rcases member with rfl | rfl <;> cases waits
      exact .inl rfl
  | limited | unlimited | withinLimit =>
      cases List.mem_singleton.mp member
      exact .inl waits
  | literal | evaluated => simp [since?_of_mem_purposeTasks member] at waits
  | baseline => simp [since?_of_mem_pollTasks member] at waits
  | round => simp [since?_of_mem_iterationTasks member] at waits
  | nest => simp [since?_of_mem_nestedTasks member] at waits
  | enter =>
      rcases List.mem_append.mp member with member | member
      · simp [since?_of_mem_commandTasks member] at waits
      · simp only [List.mem_cons, List.not_mem_nil, or_false] at member
        rcases member with rfl | rfl <;> cases waits
  | steps step remaining =>
      cases remaining with
      | nil => cases member
      | cons =>
          simp only [stepTasks, List.mem_cons, List.not_mem_nil, or_false] at member
          rcases member with rfl | rfl | rfl | rfl | rfl <;> cases waits
  | prepare | announceStart | report =>
      simp only [List.mem_cons, List.not_mem_nil, or_false] at member
      rcases member with rfl | rfl | rfl <;> cases waits
  | start | armDelay | heedAbort | deadlineAhead | delayGoesOn | countUnit | settleLeaf =>
      cases List.mem_singleton.mp member
      cases waits
  | _ => cases member

end Worker

section Lives

variable [Scalar α] {others : Board → Board → Prop} {board now : Board}
variable {worker current : Worker α} {past : List (Deed α)} {error : ScanError}

/-- The time from which a wait reckons its limit is the one that it was told at its beginning. -/
theorem Life.armed (life : Life others board worker past now current) (steady : worker.IsSteady)
    (start : ∀ task ∈ worker.agenda, task.since? = none) {task : Task α}
    (member : task ∈ current.agenda) {poll : Poll α} {since : Instant}
    (waits : task.since? = some (poll, since)) : ⟨.armPoll poll, some (.told since)⟩ ∈ past := by
  induction life generalizing task with
  | begin => simp [start task member] at waits
  | wait _ _ ih => exact ih member waits
  | @work past halfway _ acting _ first rest reply life agenda stepped ih =>
      have old : ∀ {other}, other ∈ rest → other.since? = some (poll, since) →
          (⟨.armPoll poll, some (.told since)⟩ : Deed α) ∈ past ++ [⟨first, reply⟩] :=
        fun member waits =>
          List.mem_append_left _ (ih (agenda ▸ List.mem_cons_of_mem _ member) waits)
      have new : ∀ {after more}, first.Spawns halfway acting reply after more → task ∈ more ++ rest →
          (⟨.armPoll poll, some (.told since)⟩ : Deed α) ∈ past ++ [⟨first, reply⟩] := by
        intro after more spawns member
        rcases List.mem_append.mp member with member | member
        · rcases Worker.since?_of_spawns spawns member waits with same | ⟨rfl, rfl⟩
          · exact List.mem_append_left _ (ih (agenda ▸ List.mem_cons_self) same)
          · exact List.mem_append_right _ (List.mem_singleton.mpr rfl)
        · exact old member waits
      cases Worker.outcome_of_step? (life.isSteady steady) agenda stepped with
      | sound _ spawns => exact new spawns member
      | broken => exact old ((Worker.unwind_suffix rest).mem member) waits
      | cleaning _ _ spawns => exact new spawns ((Worker.unwind_suffix _).mem member)

/-! ## The end of a run that has failed -/

/-- Every step of a worker that has failed is one that cleans up, and there are only so many. -/
theorem Life.cleans_of_failure (life : Life others board worker past now current)
    (steady : worker.IsSteady) (failed : worker.failure = some error) :
    (∀ deed ∈ past, deed.task.cleansUp = true) ∧
      past.length + Worker.tidying current.agenda ≤ Worker.tidying worker.agenda := by
  induction life with
  | begin => simp
  | wait _ _ ih => exact ih
  | work life agenda stepped ih =>
      obtain ⟨clean, bound⟩ := ih
      have still := life.failure_eq steady failed
      cases Worker.outcome_of_step? (life.isSteady steady) agenda stepped with
      | sound sound => simp [still] at sound
      | broken sound => simp [still] at sound
      | cleaning failed cleans spawns =>
          have used := Task.tidying_of_spawns spawns failed cleans
          rw [agenda, Worker.tidying_cons] at bound
          refine ⟨fun deed member => ?_, ?_⟩
          · rcases List.mem_append.mp member with member | member
            · exact clean deed member
            · cases List.mem_singleton.mp member
              exact cleans
          · rw [List.length_append, List.length_singleton, Worker.agenda_withAgenda,
              Worker.tidying_unwind, Worker.tidying_append]
            omega

/-- A worker has failed with the error that a call came back with, and has only cleaned up since. -/
theorem Life.failure_of_callError (life : Life others board worker past now current)
    (steady : worker.IsSteady) {before after : List (Deed α)} {deed : Deed α} {info : ErrorInfo}
    (split : past = before ++ deed :: after) (broken : deed.callError? = some info) :
    (∃ error, current.failure = some error ∧ error.info = info) ∧
      ∀ later ∈ after, later.task.cleansUp = true := by
  induction life generalizing after with
  | begin => simp at split
  | wait _ _ ih => exact ih split
  | @work past _ _ _ _ task rest reply life agenda stepped ih =>
      have outcome := Worker.outcome_of_step? (life.isSteady steady) agenda stepped
      rcases List.eq_nil_or_concat after with rfl | ⟨earlier, last, rfl⟩
      · obtain ⟨-, own⟩ := List.append_inj' split rfl
        cases List.singleton_inj.mp own
        refine ⟨?_, List.forall_mem_nil _⟩
        cases outcome with
        | sound _ spawns => simp [Task.callError?_of_spawns spawns] at broken
        | broken _ fails => exact ⟨_, rfl, Task.info_of_callError? broken fails⟩
        | cleaning _ _ spawns => simp [Task.callError?_of_spawns spawns] at broken
      · have whole : past ++ [⟨task, reply⟩] = (before ++ deed :: earlier) ++ [last] := by
          simpa using split
        obtain ⟨same, own⟩ := List.append_inj' whole rfl
        cases List.singleton_inj.mp own
        obtain ⟨⟨error, failed, named⟩, clean⟩ := ih same
        cases outcome with
        | sound sound => simp [failed] at sound
        | broken sound => simp [failed] at sound
        | cleaning _ cleans =>
            refine ⟨⟨error, by simpa using failed, named⟩, fun later member => ?_⟩
            rcases List.mem_append.mp (List.concat_eq_append ▸ member) with member | member
            · exact clean later member
            · cases List.mem_singleton.mp member
              exact cleans

/-! ## The cause of a failure -/

/-- There is a moment at which a worker that has failed did so, and it has only cleaned up since. -/
theorem Life.exists_break (life : Life others board worker past now current)
    (steady : worker.IsSteady) (sound : worker.failure = none)
    (failed : current.failure = some error) :
    ∃ before task reply after halfway broken rest, past = before ++ ⟨task, reply⟩ :: after ∧
      Life others board worker before halfway broken ∧ broken.failure = none ∧
      broken.agenda = task :: rest ∧ task.Fails halfway reply error ∧
      ∀ deed ∈ after, deed.task.cleansUp = true := by
  induction life with
  | begin => simp [sound] at failed
  | wait _ _ ih => exact ih failed
  | @work past _ _ _ _ task rest reply life agenda stepped ih =>
      cases Worker.outcome_of_step? (life.isSteady steady) agenda stepped with
      | sound none => simp [none] at failed
      | broken none fails =>
          cases failed
          exact ⟨past, task, reply, [], _, _, rest, rfl, life, none, agenda, fails,
            List.forall_mem_nil _⟩
      | cleaning _ cleans =>
          obtain ⟨before, other, answer, after, halfway, broken, behind, rfl, there, unbroken, due,
            fails, clean⟩ := ih (by simpa using failed)
          refine ⟨before, other, answer, after ++ [⟨task, reply⟩], halfway, broken, behind,
            by simp, there, unbroken, due, fails, fun deed member => ?_⟩
          rcases List.mem_append.mp member with member | member
          · exact clean deed member
          · cases List.mem_singleton.mp member
            exact cleans

/-- A wait whose limit is looked at is one of a unit of work, which sets the limit. -/
theorem Life.waits_of_checkLimit {steps : List (Command α)} {pollInterval : Duration}
    {runId : String} {name : Option String} {totalWork : UInt64} {poll : Poll α} {since : Instant}
    {limit : Duration} {rest : List (Task α)}
    (life : Life others board (.ofSteps steps pollInterval runId name totalWork) past now current)
    (sound : current.failure = none) (agenda : current.agenda = .checkLimit poll since limit :: rest) :
    ⟨.armPoll poll, some (.told since)⟩ ∈ past ∧
      ∃ unit ∈ Command.expandAll steps, unit.polls? = some (poll.channel, some limit) := by
  constructor
  · have waits : (Task.checkLimit poll since limit).since? = some (poll, since) := rfl
    apply life.armed nofun _ (agenda ▸ List.mem_cons_self) waits
    simp [Worker.ofSteps, Task.since?]
  · have backed := life.isBacked_ofSteps sound
    rw [agenda] at backed
    obtain ⟨unit, next, polls, limited⟩ := backed.1 rfl
    have account := (Ledger.units α).done_append_left life nofun sound
    rw [Ledger.left_units_ofSteps, agenda] at account
    refine ⟨unit, ?_, limited ▸ polls⟩
    rw [← account]
    apply List.mem_append_right
    exact List.mem_append_right _ (Worker.mem_units_of_nextUnit? next)

omit [Scalar α] in
/-- Cleaning up calls no collaborator. -/
theorem callsIn_of_cleansUp (clean : ∀ deed ∈ past, deed.task.cleansUp = true) :
    callsIn past = [] := by
  apply List.filterMap_eq_nil_iff.mpr
  exact fun deed member => Task.asks?_of_cleansUp (clean deed member)

end Lives

section Plays

variable [Scalar α] {sequence : Sequence} {pollInterval : Duration} {sequencer : Sequencer α}
variable {past future : List (Turn α)} {scene last : Scene α} {run : Nat} {worker : Worker α}
variable {runId : String} {first view : Board} {error : ScanError}

/-- A worker that has failed is not held any more. -/
theorem Worker.IsSteady.next_ne_held (steady : worker.IsSteady) (failed : worker.failure = some error)
    (board : Board) : worker.next board ≠ .held := by
  intro held
  obtain ⟨⟨rest, agenda⟩, -⟩ := Worker.next_eq_held.mp held
  have cleans := Worker.cleansUp_of_unwind (agenda ▸ steady (by simp [failed]))
  cases cleans

/-- A run that has failed comes to its report within a bounded number of steps and calls no
collaborator any more, whatever else happens. -/
theorem Followed.ends_of_failure {origin : Worker α} {since : List (Turn α)}
    (followed : Followed origin first since scene run worker view)
    (plays : sequencer.scene.Plays past scene) (failed : worker.failure = some error)
    (later : scene.Plays future last) :
    callsIn (deedsOf run future) = [] ∧
      (deedsOf run future).length ≤ Worker.tidying worker.agenda ∧
      ∃ ended view, Followed origin first (since ++ future) last run ended view ∧
        ended.failure = some error ∧ ended.next last.board ≠ .held ∧
        (ended.agenda ≠ [] → ∃ reply, (last.act? (.work run reply)).isSome = true) ∧
        (ended.agenda = [] → ended.report.isSome = true) := by
  obtain ⟨ended, view', onwards⟩ := plays.followed later followed.restart
  obtain ⟨ended', view'', whole⟩ := plays.followed later followed
  cases onwards.found.symm.trans whole.found
  rw [List.nil_append] at onwards
  obtain ⟨clean, bound⟩ := onwards.life.cleans_of_failure followed.isSteady failed
  have free := whole.isSteady.next_ne_held (onwards.life.failure_eq followed.isSteady failed)
    last.board
  refine ⟨callsIn_of_cleansUp clean, by omega, ended, view'', whole,
    onwards.life.failure_eq followed.isSteady failed, free, whole.exists_act? free, fun done => ?_⟩
  obtain ⟨report, reported, -⟩ := whole.report_of_done done
  simp [reported]

/-- A run that has failed with the error of a call is reported as failed with this error. -/
theorem Followed.report_of_failure {report : RunReport}
    (followed : Followed (sequencer.worker runId) first past scene run worker view)
    (failed : worker.failure = some error) (proper : error.info.code ≠ .interrupted)
    (reported : worker.report = some report) :
    report.state = .failed ∧ ∃ stopped, report.stoppedAt = some stopped ∧
      stopped.error = error.info := by
  have named := followed.stoppedAt_eq reported
  rw [failed, Option.map_some, Option.map_eq_some_iff] at named
  refine ⟨?_, named⟩
  rw [followed.state_eq reported, failed]
  exact Worker.finalState_eq_failed.mpr proper

/-- What a run fails over: its last call to a collaborator came back with an error, or a wait for a
channel took longer than the limit that the unit of work sets. -/
theorem Followed.cause_of_failed {report : RunReport}
    (followed : Followed (sequencer.worker runId) first past scene run worker view)
    (reported : worker.report = some report) (failed : report.state = .failed) :
    ∃ before deed after stopped, deedsOf run past = before ++ deed :: after ∧
      callsIn after = [] ∧ report.stoppedAt = some stopped ∧
      (deed.callError? = some stopped.error ∨
        ∃ poll since limit now, ∃ unit ∈ Command.expandAll sequencer.steps,
          deed = ⟨.checkLimit poll since limit, some (.told now)⟩ ∧
          ⟨.armPoll poll, some (.told since)⟩ ∈ before ∧ limit.nanoseconds ≤ now - since ∧
          unit.polls? = some (poll.channel, some limit) ∧
          stopped.error = (ScanError.timeout poll.channel limit.seconds).info) := by
  rw [followed.state_eq reported] at failed
  cases failure : worker.failure with
  | none =>
      rw [failure] at failed
      cases failed
  | some error =>
      rw [failure] at failed
      have proper := Worker.finalState_eq_failed.mp failed
      obtain ⟨-, stopped, stoppedAt, named⟩ :=
        followed.report_of_failure failure proper reported
      obtain ⟨before, task, reply, after, halfway, broken, rest, split, life, sound, agenda, fails,
        clean⟩ := followed.life.exists_break nofun rfl failure
      refine ⟨before, ⟨task, reply⟩, after, stopped, split, callsIn_of_cleansUp clean, stoppedAt, ?_⟩
      rw [named]
      have numbered := life.isNumbered nofun id (Worker.isNumbered_ofSteps ..)
      have fresh : ∀ id command, task = .start id command →
          (halfway.monitor id).status.canAdvance .running = true := by
        rintro id command rfl
        exact numbered.canAdvance agenda
      rcases Task.cause_of_fails fails fresh with
        called | rfl | ⟨poll, since, limit, now, rfl, rfl, expired, rfl⟩
      · exact .inl called
      · cases failed
      · obtain ⟨armed, unit, member, polls⟩ := life.waits_of_checkLimit sound agenda
        exact .inr ⟨poll, since, limit, now, unit, member, rfl, armed, expired, polls, rfl⟩

/-- A call to a collaborator that comes back with an error is the last one of its run. Whatever is
done around the run from then on, it is never held and comes within a bounded number of steps to its
report, which says that it failed and stopped with exactly this error. The other way round a run is
reported as failed only with the error of its last call, or because a wait took longer than the limit
that was set for it. -/
theorem failed_calls_end_runs (plays : sequencer.scene.Plays past scene)
    (begun : scene.workers[run]? = some worker) :
    (∀ before deed after info, deedsOf run past = before ++ deed :: after →
      deed.callError? = some info → callsIn after = [] ∧
        ∃ bound, ∀ future last, scene.Plays future last →
          callsIn (deedsOf run future) = [] ∧ (deedsOf run future).length ≤ bound ∧
          ∃ ended, last.workers[run]? = some ended ∧ ended.next last.board ≠ .held ∧
            (ended.agenda ≠ [] → ∃ reply, (last.act? (.work run reply)).isSome = true) ∧
            (ended.agenda = [] → ended.report.isSome = true) ∧
            ∀ report, ended.report = some report → report.state = .failed ∧
              ∃ stopped, report.stoppedAt = some stopped ∧ stopped.error = info) ∧
      ∀ report, worker.report = some report → report.state = .failed →
        ∃ before deed after stopped, deedsOf run past = before ++ deed :: after ∧
          callsIn after = [] ∧ report.stoppedAt = some stopped ∧
          (deed.callError? = some stopped.error ∨
            ∃ poll since limit now, ∃ unit ∈ Command.expandAll sequencer.steps,
              deed = ⟨.checkLimit poll since limit, some (.told now)⟩ ∧
              ⟨.armPoll poll, some (.told since)⟩ ∈ before ∧ limit.nanoseconds ≤ now - since ∧
              unit.polls? = some (poll.channel, some limit) ∧
              stopped.error = (ScanError.timeout poll.channel limit.seconds).info) := by
  obtain ⟨runId, first, view, followed, -⟩ := plays.sound.follows begun
  refine ⟨?_, fun report reported failed => followed.cause_of_failed reported failed⟩
  intro before deed after info split broken
  obtain ⟨⟨error, failed, named⟩, clean⟩ := followed.life.failure_of_callError nofun split broken
  have proper : error.info.code ≠ .interrupted := named ▸ Deed.code_of_callError? broken
  refine ⟨callsIn_of_cleansUp clean, Worker.tidying worker.agenda, fun future last later => ?_⟩
  obtain ⟨quiet, bound, ended, _, whole, still, free, goesOn, done⟩ :=
    followed.ends_of_failure plays failed later
  refine ⟨quiet, bound, ended, whole.found, free, goesOn, done, fun report reported => ?_⟩
  rw [← named]
  exact whole.report_of_failure still proper reported

/-- A read that fails while a loop within a group waits for its first value. An abort that comes
before the worker has cleaned up changes nothing: the run has failed over the read. -/
theorem failed_read_ends_run :
    ∃ (scene : Scene Rat) (report : RunReport) (stopped : StoppedStep),
      scene.board.control.aborted = true ∧ report.state = .failed ∧
        report.stoppedAt = some stopped ∧
        stopped.error = ⟨.ioError, "live I/O on 'a' failed: disconnected: line"⟩ := by
  have rehearsed : Scene.rehearse (α := Rat)
      ⟨none, [.group [.loopOver "a" 1 2 1 []], .comment "second"]⟩ ⟨2000000⟩
      (.execute "run" :: Scene.workActs 2
          [(.told 0, 11), (.wrote (.ok ()), 1), (.told 1, 0), (.told 2, 1),
            (.found (.error (.disconnected "line")), 0)] ++
        [Act.invoke .abort, .access 0 0] ++ Scene.workActs 10 [(.told 0, 3)])
      (fun past scene => scene.board.control.aborted &&
        (deedsOf 0 past).any (fun deed => decide (deed.callError? =
          some ⟨.ioError, "live I/O on 'a' failed: disconnected: line"⟩)) &&
        scene.workers[0]?.any fun worker => worker.report.isSome) = true := by
    with_unfolding_all decide
  obtain ⟨sequencer, past, scene, -, plays, test⟩ := Scene.exists_of_rehearse rehearsed
  simp only [Bool.and_eq_true, List.any_eq_true, decide_eq_true_eq, Option.any_eq_true,
    Option.isSome_iff_exists] at test
  obtain ⟨⟨aborted, deed, member, broken⟩, worker, begun, report, reported⟩ := test
  obtain ⟨before, after, split⟩ := List.append_of_mem member
  obtain ⟨ends, -⟩ := failed_calls_end_runs plays begun
  obtain ⟨-, bound, later⟩ := ends before deed after _ split broken
  obtain ⟨-, -, ended, found, -, -, -, fares⟩ := later [] scene .begin
  cases begun.symm.trans found
  obtain ⟨failed, stopped, stoppedAt, named⟩ := fares report reported
  exact ⟨scene, report, stopped, aborted, failed, stoppedAt, named⟩

end Plays

end Scan
