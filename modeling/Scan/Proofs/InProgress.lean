import Scan.Proofs.Company
import Scan.Proofs.Glimpses
import Scan.Proofs.Nesting

/-!
# The steps in progress of a run

At every moment of a run the board shows the steps in progress from the top-level step down to the
innermost one. All but the innermost one are running, and a wait is in progress for no other one.
When no run is in progress, no step is.
-/

namespace Scan

variable {α : Type}

/-! ## Steps that are running -/

/-- Monitors that are one apart from another and show steps that are running. -/
structure Board.HasRunning (board : Board) (ids : List Nat) : Prop where
  distinct : ids.Nodup
  running : ∀ id ∈ ids, (board.monitor id).status = .running

namespace Board.HasRunning

variable {board after : Board} {ids others : List Nat} {id : Nat}

theorem sublist (running : board.HasRunning ids) (fewer : others.Sublist ids) :
    board.HasRunning others :=
  ⟨fewer.nodup running.distinct, fun id member => running.running id (fewer.mem member)⟩

theorem of_running (running : board.HasRunning ids)
    (kept : ∀ id, (board.monitor id).status = .running → (after.monitor id).status = .running) :
    after.HasRunning ids :=
  ⟨running.distinct, fun id member => kept id (running.running id member)⟩

/-- A change of another monitor leaves them running. -/
theorem update (running : board.HasRunning ids) (apart : id ∉ ids) (change : Monitor → Monitor) :
    (board.update id change).HasRunning ids := by
  refine ⟨running.distinct, fun other member => ?_⟩
  rw [board.status_update_of_ne change (ne_of_mem_of_not_mem member apart).symm]
  exact running.running other member

end Board.HasRunning

namespace Worker

/-- Every step that a worker is going to settle is running, and it settles none twice. -/
def IsRunning (board : Board) (worker : Worker α) : Prop :=
  board.HasRunning (worker.agenda.filterMap Task.settles?)

variable {task : Task α} {tasks : List (Task α)}

/-- The worker of a whole run begins with nothing to settle. -/
theorem isRunning_ofSteps (board : Board) (steps : List (Command α)) (pollInterval : Duration)
    (runId : String) (name : Option String) (totalWork : UInt64) :
    IsRunning board (ofSteps steps pollInterval runId name totalWork) :=
  ⟨List.nodup_nil, by simp [ofSteps, Task.settles?]⟩

/-- What belongs to the body of a step settles nothing. -/
theorem filterMap_settles?_of_isBody (body : ∀ task ∈ tasks, task.isBody = true) :
    tasks.filterMap Task.settles? = [] :=
  List.filterMap_eq_nil_iff.mpr fun task member => Task.settles?_of_isBody (body task member)

end Worker

section Running

variable [Scalar α] {others : Board → Board → Prop} {board now after : Board}
variable {worker current : Worker α} {past : List (Deed α)} {task : Task α} {more : List (Task α)}
variable {reply : Option (Reply α)} {ids : List Nat}

/-- The steps that a task settles are running, and so are those that the tasks in its place do. -/
theorem Task.hasRunning_of_spawns (running : board.HasRunning (task.settles?.toList ++ ids))
    (fresh : ∀ id command, task = .start id command →
      id < board.monitors.size ∧ (board.monitor id).status = .idle)
    (spawns : task.Spawns board worker reply after more) :
    after.HasRunning (more.filterMap Task.settles? ++ ids) := by
  cases errand : task.isErrand
  case true =>
    have silent := task.settles?_of_isBody (Task.isBody_of_isErrand errand)
    rw [Worker.filterMap_settles?_of_isBody fun next member =>
      Task.isBody_of_isErrand (Task.isErrand_of_spawns errand spawns next member)]
    rw [silent] at running
    exact running.of_running fun id own =>
      ((Task.status_of_isErrand errand spawns).2 id).trans own
  cases spawns with
  | start id command allowed =>
      obtain ⟨exists_, idle⟩ := fresh id command rfl
      have apart : id ∉ ids := fun member => by
        have own := running.running id member
        simp [idle] at own
      have behind := running.update apart (·.advance .running)
      refine ⟨List.nodup_cons.mpr ⟨apart, running.distinct⟩, List.forall_mem_cons.mpr ⟨?_,
        behind.running⟩⟩
      rw [Board.monitor_update_self exists_, Monitor.advance, if_pos allowed]
  | enter id command =>
      rw [List.filterMap_append, Worker.filterMap_settles?_of_isBody fun _ =>
        Worker.isBody_of_mem_commandTasks]
      exact running.of_running fun _ own => own
  | settle id command | settleLeaf id command =>
      obtain ⟨apart, -⟩ := List.nodup_cons.mp running.distinct
      exact (running.sublist (List.sublist_cons_self ..)).update apart _
  | nest commands =>
      rw [Worker.filterMap_settles?_of_isBody fun _ => Worker.isBody_of_mem_nestedTasks]
      refine running.of_running fun id own => ?_
      rw [board.monitor_addCommands_of_lt commands (Board.lt_size_of_running own)]
      exact own
  | prepare commands =>
      refine running.of_running fun id own => ?_
      rw [board.monitor_addCommands_of_lt commands (Board.lt_size_of_running own)]
      exact own
  | round =>
      rw [Worker.filterMap_settles?_of_isBody fun _ => Worker.isBody_of_mem_iterationTasks]
      exact running
  | steps step remaining =>
      cases remaining <;> exact running
  | _ => first
    | exact absurd errand.symm Bool.false_ne_true
    | exact running.of_running fun _ own => own

/-- The steps that a worker is going to settle stay running as long as it has not done so. -/
theorem Life.isRunning (life : Life others board worker past now current)
    (steady : worker.IsSteady)
    (keeps : ∀ {now after : Board}, others now after → now.Foreign after)
    (numbered : worker.IsNumbered board) (start : worker.IsRunning board) :
    current.IsRunning now := by
  induction life with
  | begin => exact start
  | wait _ other ih =>
      exact ih.of_running fun id own => ((keeps other).status id).trans own
  | @work _ now _ current _ task rest reply life agenda stepped ih =>
      have unused := life.isNumbered steady keeps numbered
      have fresh : ∀ id command, task = .start id command →
          id < now.monitors.size ∧ (now.monitor id).status = .idle := by
        rintro id command rfl
        have own := Worker.mem_fresh_of_start agenda
        exact ⟨unused.exist id own, unused.idle id own⟩
      rw [Worker.IsRunning, agenda] at ih
      have own : now.HasRunning (task.settles?.toList ++ rest.filterMap Task.settles?) := by
        rw [List.filterMap_cons] at ih
        split at ih <;> simp_all
      have due : ∀ {after : Board} {more : List (Task α)},
          task.Spawns now current reply after more →
          after.HasRunning ((more ++ rest).filterMap Task.settles?) := by
        intro after more spawns
        rw [List.filterMap_append]
        exact Task.hasRunning_of_spawns own fresh spawns
      cases Worker.outcome_of_step? (life.isSteady steady) agenda stepped with
      | sound _ spawns => exact due spawns
      | broken =>
          refine own.sublist (.trans ?_ (List.sublist_append_right ..))
          exact (Worker.unwind_suffix rest).sublist.filterMap _
      | cleaning _ _ spawns =>
          exact (due spawns).sublist ((Worker.unwind_suffix _).sublist.filterMap _)

end Running

namespace Worker

variable {top : Nat → Frame α → Prop} {base : List Nat} {board : Board} {current : Nat}
variable {frames : List (Frame α)} {agenda : List (Task α)}

/-- Every step in whose body a worker is will be settled. -/
theorem Framed.mem_settles (framed : Framed top base current frames agenda) :
    ∀ frame ∈ frames, frame.1 ∈ agenda.filterMap Task.settles? := by
  induction framed with
  | outside => exact List.forall_mem_nil _
  | @inside frame frames inner rest _ _ _ _ ih =>
      rw [List.filterMap_append]
      refine List.forall_mem_cons.mpr ⟨List.mem_append_right _ List.mem_cons_self, ?_⟩
      intro outer member
      exact List.mem_append_right _ (List.mem_cons_of_mem _ (ih outer member))

/-- Every step in progress but the innermost one will be settled. -/
theorem Stacked.mem_settles (stacked : Stacked top base current frames agenda) :
    ∀ frame ∈ frames.tail, frame.1 ∈ agenda.filterMap Task.settles? := by
  cases stacked with
  | working framed =>
      exact fun frame member => framed.mem_settles frame (List.mem_of_mem_tail member)
  | entering _ framed =>
      intro frame member
      exact List.mem_cons_of_mem _ (framed.mem_settles frame (List.mem_of_mem_tail member))
  | leaving _ _ framed =>
      intro frame member
      rw [List.filterMap_append]
      exact List.mem_append_right _ (framed.mem_settles frame member)

/-- The steps in whose bodies a worker is are one within the other, the outermost at the top. -/
theorem Framed.isChain (framed : Framed top base current frames agenda) :
    frames.IsChain (fun inner outer => outer.Contains inner) ∧
      ∀ frame ∈ frames.getLast?, top current frame := by
  induction framed with
  | outside => exact ⟨.nil, by simp⟩
  | @inside frame frames _ _ _ _ placed _ ih =>
      cases frames with
      | nil => exact ⟨.singleton _, by simpa [Placed] using placed⟩
      | cons outer frames =>
          refine ⟨.cons_cons placed ih.1, ?_⟩
          rw [List.getLast?_cons_cons]
          exact ih.2

/-- The steps in progress are one within the other, the outermost at the top. -/
theorem Stacked.isChain (stacked : Stacked top base current frames agenda) :
    frames.IsChain (fun inner outer => outer.Contains inner) ∧
      ∀ frame ∈ frames.getLast?, top current frame := by
  cases stacked with
  | working framed => exact framed.isChain
  | entering _ framed => exact framed.isChain
  | @leaving frame frames _ rest _ placed framed =>
      have settling : Framed top base current (frame :: frames)
          ([] ++ .settle frame.1 frame.2 :: .leave :: rest) :=
        .inside (List.forall_mem_nil _) trivial placed framed
      exact settling.isChain

end Worker

/-! ## What a run shows -/

/-- Whether a step is the top-level step of a number. -/
def Frame.IsTop (steps : List (Command α)) (step : Nat) (frame : Frame α) : Prop :=
  1 ≤ step ∧ steps[step - 1]? = some frame.2

theorem Frame.isTop_of_numbered {steps : List (Command α)} {first step : Nat} {frame : Frame α}
    (found : (Board.numbered first steps)[step]? = some frame) :
    Frame.IsTop steps (1 + step) frame := by
  refine ⟨Nat.le_add_right .., ?_⟩
  rw [Nat.add_sub_cancel_left, ← Board.map_snd_numbered first steps, List.getElem?_map, found]
  rfl

/-- A board that shows some steps as those in progress, innermost first. They stand one within the
other, the outermost is the top-level step that is shown, and all around the innermost one are
running. A wait is in progress for none but the innermost one. -/
structure Board.ShowsSteps (board : Board) (steps : List (Command α)) (frames : List (Frame α)) :
    Prop where
  active : board.active = frames.map Prod.fst
  chain : frames.IsChain (fun inner outer => outer.Contains inner)
  outermost : ∀ frame ∈ frames.getLast?, frame.IsTop steps board.currentStep
  running : ∀ id ∈ board.active.tail, (board.monitor id).status = .running
  timed : ∀ id, (board.monitor id).started ≠ none → board.active.head? = some id

/-- A request to skip leaves a wait as it is, apart from cutting it short. -/
@[simp] theorem Monitor.wait_recordSkip (monitor : Monitor) :
    monitor.recordSkip.wait = monitor.wait := by
  unfold recordSkip release wait
  split
  · simp
  · rfl

/-- A control call leaves the steps in progress and their waits as they are. -/
theorem Call.spares_step (totalWork : UInt64) (now : Instant) (board : Board) (call : Call) :
    board.Spares (call.step totalWork now board).1 := by
  obtain ⟨currentStep, active⟩ := call.shown_step totalWork now board
  refine ⟨active, currentStep, fun id => ?_⟩
  cases call with
  | skipRecord own =>
      exact board.monitor_update_of own (·.wait = (board.monitor id).wait)
        (fun monitor same => monitor.wait_recordSkip.trans same) rfl
  | _ => first
    | rfl
    | simp only [step]
      split <;> rfl

theorem Board.Bystander.monitor {board after : Board} (bystander : board.Bystander after)
    (id : Nat) :
    after.monitor id = board.monitor id := by
  rw [Board.monitor, bystander.monitors]
  rfl

namespace Scene

variable [Scalar α] {sequencer : Sequencer α} {past future : List (Turn α)}
variable {scene next last : Scene α} {act : Act α}

/-- A run begins, a worker makes a step, or the steps in progress and the beginning of a wait are
left as they are. -/
theorem spares_of_act? (acted : scene.act? act = some next) :
    (∃ runId, act = .execute runId ∧ scene.sequencer.isTaken = false) ∨
      (∃ run reply, act = .work run reply) ∨
      next.workers = scene.workers ∧ scene.board.Spares next.board ∧
        ∀ run, (⟨scene, act⟩ : Turn α).deed? run = none := by
  rcases shown_of_act? acted with ⟨runId, appended, -⟩ | work | ⟨-, currentStep, active⟩
  all_goals rcases amid_of_act? acted with ⟨runId, rfl, free, -⟩ | work | ⟨workers, -, amid, silent⟩
  case inr.inr.inr.inr =>
    refine .inr (.inr ⟨workers, ⟨active, currentStep, fun id => ?_⟩, silent⟩)
    generalize next.board = after at amid
    cases amid with
    | access totalWork now => exact (Call.spares_step totalWork now scene.board _).wait id
    | aside bystander => rw [bystander.monitor]
  case inl.inr.inr => simp [workers] at appended
  all_goals first
    | exact .inr (.inl work)
    | exact .inl ⟨runId, rfl, free⟩

/-- A run that begins takes the board. -/
theorem act?_execute {runId : String} (free : scene.sequencer.isTaken = false)
    (acted : scene.act? (.execute runId) = some next) :
    next.workers = scene.workers ++ [scene.sequencer.worker runId] ∧
      next.board = { scene.board.resetControl with
        run := .running, work := WorkCounter.reset scene.sequencer.totalWork, active := [] } := by
  simp only [act?, Sequencer.beginRun, free] at acted
  cases acted
  exact ⟨rfl, rfl⟩

/-- What holds of the last run, of the turns so far, of the board and of its worker: it holds if it
does so when a run begins, after every step of its worker, and after what others do. -/
theorem Plays.last_induction (holds : Nat → List (Turn α) → Board → Worker α → Prop)
    (begins : ∀ {past : List (Turn α)} {scene : Scene α} {runId : String},
      sequencer.scene.Plays past scene → scene.sequencer.isTaken = false →
      (∀ run worker, scene.workers[run]? = some worker → run + 1 = scene.workers.length →
        holds run past scene.board worker) →
      holds scene.workers.length (past ++ [⟨scene, .execute runId⟩])
        { scene.board.resetControl with
          run := .running, work := WorkCounter.reset scene.sequencer.totalWork, active := [] }
        (sequencer.worker runId))
    (works : ∀ {past : List (Turn α)} {scene : Scene α} {run : Nat} {worker after : Worker α}
      {reply : Option (Reply α)} {board : Board}, sequencer.scene.Plays past scene →
      scene.workers[run]? = some worker → worker.step? scene.board reply = some (board, after) →
      holds run past scene.board worker →
      holds run (past ++ [⟨scene, .work run reply⟩]) board after)
    (waits : ∀ {past : List (Turn α)} {turn : Turn α} {run : Nat} {worker : Worker α}
      {board : Board},
      turn.scene.board.Spares board → turn.deed? run = none →
      holds run past turn.scene.board worker → holds run (past ++ [turn]) board worker)
    (plays : sequencer.scene.Plays past scene) {run : Nat} {worker : Worker α}
    (found : scene.workers[run]? = some worker) (last : run + 1 = scene.workers.length) :
    holds run past scene.board worker := by
  induction plays generalizing run worker with
  | begin => cases found
  | @turn past scene next act plays acted ih =>
      rcases spares_of_act? acted with ⟨runId, rfl, free⟩ | ⟨other, reply, rfl⟩ |
        ⟨workers, spares, silent⟩
      · obtain ⟨workers, board⟩ := act?_execute free acted
        simp only [workers, List.length_append, List.length_singleton, Nat.add_right_cancel_iff]
          at found last
        subst last
        rw [List.getElem?_concat_length] at found
        cases found
        have own : scene.sequencer.worker runId = sequencer.worker runId := by
          rw [plays.sound.own]
          rfl
        rw [board, own]
        exact begins plays free fun _ _ => ih
      · obtain ⟨moving, board, after, moved, stepped, rfl⟩ := exists_of_work acted
        simp only [List.length_set] at found last
        by_cases same : other = run
        · subst same
          rw [List.getElem?_set_self (List.getElem?_eq_some_iff.mp moved).1] at found
          cases found
          exact works plays moved stepped (ih moved last)
        · -- another run has begun since, so this one only publishes events
          rw [List.getElem?_set_ne same] at found
          obtain ⟨_, _, _, followed, -⟩ := plays.sound.follows moved
          have ended : ¬ moving.IsOpen := fun isOpen => by
            have current := (followed.current.mpr isOpen).1
            have inBounds := (List.getElem?_eq_some_iff.mp moved).1
            omega
          obtain ⟨_, _, _, _, rfl, -⟩ := followed.step_of_over ended stepped
          exact waits ⟨rfl, rfl, fun _ => rfl⟩ (by simp [Turn.deed?, same]) (ih found last)
      · rw [workers] at found last
        exact waits spares (silent run) (ih found last)

/-- Before the first run there is no wait. -/
theorem Plays.hasNoWait_of_bare (plays : sequencer.scene.Plays past scene)
    (fresh : sequencer.board = {}) (bare : scene.workers = []) : scene.board.HasNoWait := by
  induction plays with
  | begin =>
      intro id
      rw [Sequencer.scene, board, fresh]
      exact ⟨rfl, rfl⟩
  | turn _ acted ih =>
      rcases spares_of_act? acted with ⟨runId, rfl, free⟩ | ⟨run, reply, rfl⟩ |
        ⟨workers, spares, -⟩
      · simp [(act?_execute free acted).1] at bare
      · obtain ⟨_, _, _, found, -, rfl⟩ := exists_of_work acted
        rw [List.set_eq_nil_iff] at bare
        simp [bare] at found
      · intro id
        rw [spares.started, spares.installed]
        exact ih (workers ▸ bare) id

omit [Scalar α] in
/-- The worker of the last run, with the steps that are shown. -/
def LastNests (sequencer : Sequencer α) (past : List (Turn α)) (scene : Scene α) : Prop :=
  ∀ run worker, scene.workers[run]? = some worker → run + 1 = scene.workers.length →
    Worker.Nests (Frame.IsTop sequencer.steps) [] scene.board (framesOf (deedsOf run past))
      worker.agenda

/-- As long as no run is in progress there is no wait. -/
theorem Plays.hasNoWait_of_inactive (plays : sequencer.scene.Plays past scene)
    (fresh : sequencer.board = {}) (nests : scene.LastNests sequencer past)
    (inactive : scene.board.run.isActive = false) : scene.board.HasNoWait := by
  rcases List.eq_nil_or_concat scene.workers with none | ⟨earlier, worker, whole⟩
  · exact plays.hasNoWait_of_bare fresh none
  · rw [List.concat_eq_append] at whole
    have found : scene.workers[earlier.length]? = some worker := by
      rw [whole, List.getElem?_concat_length]
    obtain ⟨_, _, _, followed, -⟩ := plays.sound.follows found
    have ended := plays.sound.not_isOpen_of_inactive inactive (List.mem_of_getElem? found)
    obtain ⟨report, -, suffix⟩ := followed.stage.exists_report ended
    have nests := nests _ _ found (by simp [whole])
    cases agenda : worker.agenda with
    | nil =>
        rw [agenda] at nests
        exact nests.of_nil.2
    | cons task rest =>
        rw [agenda] at nests suffix
        obtain ⟨event, rfl⟩ := Worker.exists_event_of_suffix suffix List.mem_cons_self
        exact nests.hasNoWait rfl (fun _ => ⟨nofun, nofun⟩) nofun

/-- The board shows the steps in progress of the last run. -/
theorem Plays.lastNests (plays : sequencer.scene.Plays past scene) (fresh : sequencer.board = {}) :
    scene.LastNests sequencer past := by
  refine fun run worker => plays.last_induction (fun run past board worker =>
    Worker.Nests (Frame.IsTop sequencer.steps) [] board (framesOf (deedsOf run past)) worker.agenda)
    ?_ ?_ ?_
  · intro past scene runId plays free before
    simp only [Sequencer.isTaken, Bool.or_eq_false_iff] at free
    rw [deedsOf_concat rfl, plays.sound.beyond _ (Nat.le_refl _)]
    apply Worker.nests_ofSteps
    · rfl
    · exact plays.hasNoWait_of_inactive fresh before free.1
    · exact fun _ _ _ => Frame.isTop_of_numbered
  · intro past scene run worker after reply board plays found stepped nests
    obtain ⟨task, rest, agenda, -⟩ := Worker.step?_cases stepped
    obtain ⟨_, _, _, followed, -⟩ := plays.sound.follows found
    rw [deedsOf_work found agenda, framesOf_concat]
    rw [agenda] at nests
    have outcome := Worker.outcome_of_step? followed.isSteady agenda stepped
    rw [← List.append_nil rest] at outcome
    rcases outcome.nests nests with ⟨inner, -, agenda, nests⟩ | ⟨reached, nests⟩
    · rwa [agenda, List.append_nil]
    · have nothing : after.agenda = [] := by rw [reached]; split <;> rfl
      rwa [nothing]
  · intro past turn run worker board spares silent nests
    rw [deedsOf_concat silent]
    exact nests.of_spares spares

/-- The worker of the run in progress, with the steps that are shown. -/
theorem Plays.exists_nests (plays : sequencer.scene.Plays past scene) (fresh : sequencer.board = {})
    {run : Nat} (current : scene.IsCurrent run) :
    ∃ worker, scene.workers[run]? = some worker ∧
      Worker.Nests (Frame.IsTop sequencer.steps) [] scene.board (framesOf (deedsOf run past))
        worker.agenda := by
  have found := List.getElem?_eq_getElem (Nat.lt_of_lt_of_eq (Nat.lt_succ_self run) current.1)
  exact ⟨_, found, plays.lastNests fresh _ _ found current.1⟩

/-- During a run the board shows the steps that its worker has entered and not left again. -/
theorem Plays.showsSteps (plays : sequencer.scene.Plays past scene) (fresh : sequencer.board = {})
    {run : Nat} (current : scene.IsCurrent run) :
    scene.board.ShowsSteps sequencer.steps (framesOf (deedsOf run past)) := by
  obtain ⟨worker, found, nests⟩ := plays.exists_nests fresh current
  obtain ⟨chain, outermost⟩ := nests.stacked.isChain
  have active : scene.board.active = (framesOf (deedsOf run past)).map Prod.fst := by
    rw [nests.active, List.append_nil]
  refine ⟨active, chain, outermost, fun id member => ?_,
    fun id started => (nests.timed id started).2⟩
  obtain ⟨runId, first, view, followed, -⟩ := plays.sound.follows found
  have running := followed.life.isRunning nofun (fun other => other) (Worker.isNumbered_ofSteps ..)
    (Worker.isRunning_ofSteps ..)
  rw [followed.sees current] at running
  rw [active, ← List.map_tail, List.mem_map] at member
  obtain ⟨frame, member, rfl⟩ := member
  exact running.running _ (nests.stacked.mem_settles frame member)

/-- What the board shows of the steps in progress, at every moment of every play. During a run they
are those that its worker has entered and not left again, from the top-level step that is shown down
to the innermost one; all but the innermost one are running, and only for that one a wait may be in
progress. Whenever another step is about to be started there is no wait. When no run is in progress
there are no steps in progress, none is shown and there is no wait.

Whatever comes of a step that is about to be started, on any board without a wait, and also if it is
refused: when the worker is through with it, the steps in progress are as before, and there is no
wait. -/
theorem board_shows_steps_in_progress {sequence : Sequence} {pollInterval : Duration}
    (accepted : Sequencer.ofSequence sequence pollInterval = .ok sequencer)
    (plays : sequencer.scene.Plays past scene) :
    (∀ run, scene.IsCurrent run →
        scene.board.ShowsSteps sequencer.steps (framesOf (deedsOf run past)) ∧
          ∀ worker id command behind, scene.workers[run]? = some worker →
            worker.agenda = .start id command :: behind → scene.board.HasNoWait) ∧
      (scene.board.run.isActive = false →
        scene.board.active = [] ∧ scene.board.currentStep = 0 ∧ scene.board.HasNoWait) ∧
      ∀ {board now : Board} {worker current : Worker α} {deeds : List (Deed α)} {id : Nat}
        {command : Command α} {behind : List (Task α)},
        Life Board.Spares board worker deeds now current → worker.failure = none →
        worker.agenda = .start id command :: behind → board.HasNoWait →
        (∃ inner, inner ≠ [] ∧ current.agenda = inner ++ behind) ∨
          ∃ first second middle halfway, deeds = first ++ second ∧
            Life Board.Spares board worker first middle halfway ∧ halfway.HasReached behind ∧
            middle.active = board.active ∧ middle.HasNoWait ∧
            Life Board.Spares middle halfway second now current := by
  have fresh := Sequencer.board_eq_of_ofSequence accepted
  have nested := plays.lastNests fresh
  refine ⟨fun run current => ⟨plays.showsSteps fresh current, ?_⟩, fun inactive => ?_,
    fun life sound agenda quiet => life.leaves_as_found (fun other => other) sound agenda quiet⟩
  · intro worker id command behind found starts
    have nests := nested _ _ found current.1
    rw [starts] at nests
    exact nests.hasNoWait rfl (fun _ => ⟨nofun, nofun⟩) nofun
  · obtain ⟨currentStep, active⟩ := plays.nothing_shown fresh inactive
    exact ⟨active, currentStep, plays.hasNoWait_of_inactive fresh nested inactive⟩

/-- A delay within a loop within a group waits: the three steps are in progress one within the
other, the loop and the group are running, and the wait of the delay is the only one. -/
theorem delay_within_loop_is_shown :
    ∃ (sequencer : Sequencer Rat) (past : List (Turn Rat)) (scene : Scene Rat)
      (delay loop group : Nat),
      sequencer.scene.Plays past scene ∧ scene.board.active = [delay, loop, group] ∧
        (scene.board.monitor delay).started = some 3 ∧
        (∀ other, other ≠ delay → (scene.board.monitor other).started = none) ∧
        (scene.board.monitor loop).status = .running ∧
        (scene.board.monitor group).status = .running := by
  have rehearsed : Scene.rehearse (α := Rat)
      ⟨none, [.group [.loopOver "a" 1 2 1 [.delay 1]]]⟩ ⟨2000000⟩
      (.execute "run" :: Scene.workActs 2
        [(.told 0, 11), (.wrote (.ok ()), 1), (.told 1, 0), (.told 2, 1), (.found (.ok 1), 9),
          (.told 3, 0)])
      (fun _ scene => decide (scene.workers.length = 1) && scene.board.run.isActive &&
        decide (scene.board.active = [2, 1, 0]) &&
        decide ((scene.board.monitor 2).started = some 3)) = true := by
    decide +kernel
  obtain ⟨sequencer, past, scene, accepted, plays, test⟩ := Scene.exists_of_rehearse rehearsed
  simp only [Bool.and_eq_true, decide_eq_true_eq] at test
  obtain ⟨⟨⟨length, active⟩, steps⟩, started⟩ := test
  have shows := (board_shows_steps_in_progress accepted plays).1 0 ⟨length.symm, active⟩ |>.1
  refine ⟨sequencer, past, scene, 2, 1, 0, plays, steps, started, fun other apart => ?_, ?_, ?_⟩
  · by_contra waits
    have innermost := shows.timed other waits
    rw [steps] at innermost
    exact apart (Option.some.inj innermost).symm
  all_goals
    refine shows.running _ ?_
    simp [steps]

end Scene

end Scan
