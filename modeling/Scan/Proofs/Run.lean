import Scan.Proofs.Scene

/-!
# The runs of a play

In a play that begins with a fresh sequencer, the worker of every run lives a life of its own: as
long as its run is in progress it finds the board as the scene shows it, and afterwards it has only
events left to publish. A run is in progress exactly as long as its worker has the state of the run
still to set.
-/

namespace Scan

variable {α : Type}

namespace Worker

/-- A worker that still has its report to write or the state of its run to set. -/
def IsOpen (worker : Worker α) : Prop :=
  ∃ task ∈ worker.agenda, task.isInner = false

theorem cleansUp_of_not_isInner {task : Task α} (ending : task.isInner = false) :
    task.cleansUp = true := by
  cases task <;> first | rfl | exact absurd ending.symm Bool.false_ne_true

/-- A task that cleans up is not lost by unwinding. -/
theorem mem_unwind {task : Task α} {agenda : List (Task α)} (member : task ∈ agenda)
    (cleans : task.cleansUp = true) : task ∈ unwind agenda := by
  induction agenda with
  | nil => cases member
  | cons first rest ih =>
      cases firstCleans : first.cleansUp
      · rw [unwind_cons_of_not_cleansUp firstCleans]
        rcases List.mem_cons.mp member with rfl | member
        · simp [cleans] at firstCleans
        · exact ih member
      · rwa [unwind_cons_of_cleansUp firstCleans]

theorem isActive_finalState (failure : Option ScanError) :
    (finalState failure).isActive = false := by
  unfold finalState
  split <;> rfl

theorem not_isOpen_of_suffix {worker : Worker α} {report : RunReport}
    (agenda : worker.agenda <:+
      [.announce (.stateChanged report.state), .announce (.finished report)]) :
    ¬ worker.IsOpen := by
  rintro ⟨task, member, ending⟩
  obtain ⟨event, rfl⟩ := exists_event_of_suffix agenda member
  exact absurd ending.symm Bool.false_ne_true

/-- A worker that has set the state of its run has only events left. -/
theorem Stage.exists_report {board : Board} {worker : Worker α} (stage : Stage board worker)
    (ended : ¬ worker.IsOpen) : ∃ report, worker.Reports board report ∧
      worker.agenda <:+
        [.announce (.stateChanged report.state), .announce (.finished report)] := by
  cases stage with
  | working front agenda =>
      exact absurd ⟨.report, by simp [agenda], rfl⟩ ended
  | reporting report agenda =>
      exact absurd ⟨.setState report.state, by simp [agenda], rfl⟩ ended
  | closed report agenda reports => exact ⟨report, reports, agenda⟩

/-- The state that a worker sets at its end is not an active one. -/
theorem Stage.isActive_of_setState {board : Board} {worker : Worker α} {state : RunState}
    {rest : List (Task α)} (stage : Stage board worker)
    (agenda : worker.agenda = .setState state :: rest) : state.isActive = false := by
  obtain ⟨report, reports, rfl, -⟩ := stage.exists_report_of_setState agenda
  rw [reports.state]
  exact isActive_finalState _

variable [Scalar α] {board after : Board} {worker next : Worker α} {task : Task α}
variable {rest more : List (Task α)} {reply : Option (Reply α)}

/-- Only setting the state changes the state of the run. -/
theorem run_of_spawns (spawns : task.Spawns board worker reply after more) :
    after.run = board.run ∨ ∃ state, task = .setState state ∧ after.run = state := by
  cases spawns with
  | setState state => exact .inr ⟨state, rfl, rfl⟩
  | nest | prepare =>
      rw [Board.addCommands_eq]
      exact .inl rfl
  | _ => exact .inl rfl

/-- A worker is open as long as it has not set the state of its run. -/
theorem Outcome.isOpen_of_ne (agenda : worker.agenda = task :: rest)
    (outcome : Outcome board worker task rest reply after next) (isOpen : worker.IsOpen)
    (other : ∀ state, task ≠ .setState state) : next.IsOpen := by
  obtain ⟨ending, member, isEnding⟩ := isOpen
  rw [agenda] at member
  have cleans := cleansUp_of_not_isInner isEnding
  rcases List.mem_cons.mp member with rfl | member
  · cases ending with
    | setState state => exact absurd rfl (other state)
    | report =>
        cases outcome with
        | sound _ spawns =>
            cases spawns with
            | report => exact ⟨_, List.mem_append_left _ List.mem_cons_self, rfl⟩
        | broken _ fails => cases fails
        | cleaning _ _ spawns =>
            cases spawns with
            | report =>
                exact ⟨_, mem_unwind (List.mem_append_left _ List.mem_cons_self) rfl, rfl⟩
    | _ => exact absurd isEnding.symm Bool.false_ne_true
  · cases outcome with
    | sound => exact ⟨ending, List.mem_append_right _ member, isEnding⟩
    | broken => exact ⟨ending, mem_unwind member cleans, isEnding⟩
    | cleaning => exact ⟨ending, mem_unwind (List.mem_append_right _ member) cleans, isEnding⟩

/-- An open worker of an active run stays open as long as the run stays active, and then the state
of the run is the one that its report says. -/
theorem Outcome.isOpen_iff (agenda : worker.agenda = task :: rest)
    (outcome : Outcome board worker task rest reply after next) (isOpen : worker.IsOpen)
    (stage : Stage board worker) (active : board.run.isActive = true) :
    (after.run.isActive = true ↔ next.IsOpen) ∧
      (¬ next.IsOpen → ∃ report, next.report = some report ∧ after.run = report.state) := by
  by_cases sets : ∃ state, task = .setState state
  · obtain ⟨state, rfl⟩ := sets
    obtain ⟨report, reports, rfl, rfl⟩ := stage.exists_report_of_setState agenda
    have inactive := stage.isActive_of_setState agenda
    cases outcome with
    | sound _ spawns =>
        cases spawns with
        | setState =>
            exact ⟨iff_of_false (by simp [inactive]) (not_isOpen_of_suffix List.suffix_rfl),
              fun _ => ⟨report, reports.kept, rfl⟩⟩
    | broken _ fails => cases fails
    | cleaning _ _ spawns =>
        cases spawns with
        | setState =>
            exact ⟨iff_of_false (by simp [inactive]) (not_isOpen_of_suffix (unwind_suffix _)),
              fun _ => ⟨report, reports.kept, rfl⟩⟩
  · have goesOn : next.IsOpen :=
      outcome.isOpen_of_ne agenda isOpen fun state same => sets ⟨state, same⟩
    have same : after.run = board.run := by
      cases outcome with
      | sound _ spawns | cleaning _ _ spawns =>
          refine (run_of_spawns spawns).resolve_right ?_
          rintro ⟨state, same, -⟩
          exact sets ⟨state, same⟩
      | broken => rfl
    exact ⟨by simp [same, active, goesOn], fun ended => absurd goesOn ended⟩

end Worker

/-! ## Lives in a play -/

/-- What the turns `since` some moment come to for one run, whose worker was `origin` at that moment
and saw the board `first`. As long as the run is in progress `view` is the board of the scene;
afterwards it is the board as it was then. -/
structure Followed [Scalar α] (origin : Worker α) (first : Board) (since : List (Turn α))
    (scene : Scene α) (run : Nat) (worker : Worker α) (view : Board) : Prop where
  found : scene.workers[run]? = some worker
  life : Life Board.Foreign first origin (deedsOf run since) view worker
  isSteady : worker.IsSteady
  stage : Worker.Stage view worker
  current : scene.IsCurrent run ↔ worker.IsOpen
  sees : scene.IsCurrent run → view = scene.board
  counted : run + 1 = scene.workers.length → view.work = scene.board.work
  state : run + 1 = scene.workers.length → ¬ worker.IsOpen →
    ∃ report, worker.report = some report ∧ scene.board.run = report.state

/-- What holds of every play of a sequencer. -/
structure Scene.Sound [Scalar α] (sequencer : Sequencer α) (past : List (Turn α))
    (scene : Scene α) : Prop where
  own : scene.sequencer = sequencer.withBoard scene.board
  beyond : ∀ run, scene.workers.length ≤ run → deedsOf run past = []
  follows : ∀ {run worker}, scene.workers[run]? = some worker → ∃ runId first view,
    Followed (sequencer.worker runId) first past scene run worker view ∧
      first.work = WorkCounter.reset sequencer.totalWork ∧ first.control = {}

section Followed

variable [Scalar α] {origin worker after : Worker α} {first view board : Board}
variable {since : List (Turn α)} {scene next : Scene α} {run : Nat} {turn : Turn α}
variable {reply : Option (Reply α)}

/-- A run can be followed from any moment on. -/
theorem Followed.restart (followed : Followed origin first since scene run worker view) :
    Followed worker view [] scene run worker view :=
  { followed with life := .begin }

omit [Scalar α] in
theorem deedsOf_concat (silent : turn.deed? run = none) :
    deedsOf run (since ++ [turn]) = deedsOf run since := by
  simp [deedsOf, silent]

omit [Scalar α] in
theorem deedsOf_work {task : Task α} {rest : List (Task α)}
    (found : scene.workers[run]? = some worker) (agenda : worker.agenda = task :: rest) :
    deedsOf run (since ++ [⟨scene, .work run reply⟩]) = deedsOf run since ++ [⟨task, reply⟩] := by
  simp [deedsOf, Turn.deed?, found, agenda]

theorem Board.Foreign.isActive_eq {board after : Board} (foreign : board.Foreign after) :
    after.run.isActive = board.run.isActive := by
  rcases foreign.run with same | ⟨before, now⟩
  · rw [same]
  · rw [before, now]

/-- A run that is over is left behind by whatever happens to a later one. -/
theorem Followed.leave (followed : Followed origin first since scene run worker view)
    (ended : ¬ scene.IsCurrent run) (earlier : run + 1 ≠ next.workers.length)
    (found : next.workers[run]? = some worker) (silent : turn.deed? run = none) :
    Followed origin first (since ++ [turn]) next run worker view where
  found := found
  life := by
    rw [deedsOf_concat silent]
    exact followed.life
  isSteady := followed.isSteady
  stage := followed.stage
  current := iff_of_false (fun current => earlier current.1) (mt followed.current.mpr ended)
  sees := fun current => absurd current.1 earlier
  counted := fun last => absurd last earlier
  state := fun last => absurd last earlier

/-- What others do to the board is seen by the run in progress only. -/
theorem Followed.wait (followed : Followed origin first since scene run worker view)
    (foreign : scene.board.Foreign next.board)
    (length : next.workers.length = scene.workers.length)
    (found : next.workers[run]? = some worker) (silent : turn.deed? run = none) :
    ∃ view, Followed origin first (since ++ [turn]) next run worker view := by
  have current : next.IsCurrent run ↔ scene.IsCurrent run := by
    rw [Scene.IsCurrent, Scene.IsCurrent, length, foreign.isActive_eq]
  have state : run + 1 = next.workers.length → ¬ worker.IsOpen →
      ∃ report, worker.report = some report ∧ next.board.run = report.state := by
    intro last ended
    obtain ⟨report, reported, same⟩ := followed.state (last.trans length) ended
    refine ⟨report, reported, ?_⟩
    rcases foreign.run with unchanged | ⟨active, _⟩
    · rw [unchanged, same]
    · exact absurd (followed.current.mp ⟨last.trans length, active⟩) ended
  have life := followed.life
  rw [← deedsOf_concat silent] at life
  by_cases now : scene.IsCurrent run
  · have sees := followed.sees now
    subst sees
    exact ⟨next.board, found, .wait life foreign, followed.isSteady,
      followed.stage.of_work_eq foreign.work, current.trans followed.current, fun _ => rfl,
      fun _ => rfl, state⟩
  · refine ⟨view, found, life, followed.isSteady, followed.stage, current.trans followed.current,
      fun current' => absurd (current.mp current') now, fun last => ?_, state⟩
    rw [followed.counted (last.trans length), foreign.work]

/-- A step of the run in progress is a step of its life. -/
theorem Followed.work_of_current (followed : Followed origin first since scene run worker view)
    (current : scene.IsCurrent run) (stepped : worker.step? scene.board reply = some (board, after))
    (workers : next.workers = scene.workers.set run after) (now : next.board = board) :
    Followed origin first (since ++ [⟨scene, .work run reply⟩]) next run after board := by
  obtain ⟨task, rest, agenda, -⟩ := Worker.step?_cases stepped
  have sees := followed.sees current
  subst sees
  have life : Life Board.Foreign first origin (deedsOf run since ++ [⟨task, reply⟩]) board after :=
    .work followed.life agenda stepped
  have outcome := Worker.outcome_of_step? followed.isSteady agenda stepped
  obtain ⟨active, state⟩ := outcome.isOpen_iff agenda (followed.current.mp current)
    followed.stage current.2
  have length : next.workers.length = scene.workers.length := by simp [workers]
  refine ⟨?_, ?_, outcome.isSteady, outcome.stage agenda followed.stage, ?_,
    fun _ => now.symm, fun _ => congrArg Board.work now.symm, fun _ ended => ?_⟩
  · rw [workers]
    exact List.getElem?_set_self (List.getElem?_eq_some_iff.mp followed.found).1
  · rwa [deedsOf_work followed.found agenda]
  · rw [Scene.IsCurrent, length, now, active]
    exact and_iff_right current.1
  · rw [now]
    exact state ended

/-- A worker whose run is over only publishes events. -/
theorem Followed.step_of_over (followed : Followed origin first since scene run worker view)
    (ended : ¬ worker.IsOpen) (stepped : worker.step? scene.board reply = some (board, after)) :
    ∃ event rest, worker.agenda = .announce event :: rest ∧ reply = none ∧
      board = scene.board.publish event ∧ ¬ after.IsOpen ∧ after.report = worker.report ∧
      worker.step? view none = some (view.publish event, after) := by
  obtain ⟨report, -, suffix⟩ := followed.stage.exists_report ended
  obtain ⟨task, rest, agenda, -⟩ := Worker.step?_cases stepped
  have shorter : rest <:+ [.announce (.stateChanged report.state), .announce (.finished report)] :=
    (List.suffix_cons task rest).trans (agenda ▸ suffix)
  have member : task ∈ worker.agenda := by simp [agenda]
  obtain ⟨event, rfl⟩ := Worker.exists_event_of_suffix suffix member
  have goesOn : worker.step? view none = some (view.publish event, worker.proceed []) :=
    Worker.step?_of_spawns agenda (.announce event)
  cases Worker.outcome_of_step? followed.isSteady agenda stepped with
  | sound before spawns =>
      cases spawns with
      | announce =>
          refine ⟨event, rest, agenda, rfl, rfl, Worker.not_isOpen_of_suffix shorter, rfl, ?_⟩
          rw [goesOn, Worker.proceed_of_sound _ before, agenda]
          rfl
  | broken _ fails => cases fails
  | cleaning failed _ spawns =>
      cases spawns with
      | announce =>
          refine ⟨event, rest, agenda, rfl, rfl,
            Worker.not_isOpen_of_suffix ((Worker.unwind_suffix _).trans shorter), rfl, ?_⟩
          rw [goesOn, Worker.proceed_of_failed _ failed, agenda]
          rfl

/-- A step of a worker whose run is over is a step of its life as well. -/
theorem Followed.work_of_over (followed : Followed origin first since scene run worker view)
    (ended : ¬ worker.IsOpen) (stepped : worker.step? scene.board reply = some (board, after))
    (workers : next.workers = scene.workers.set run after) (now : next.board = board) :
    ∃ view, Followed origin first (since ++ [⟨scene, .work run reply⟩]) next run after view := by
  obtain ⟨event, rest, agenda, rfl, rfl, overAfter, report, goesOn⟩ :=
    followed.step_of_over ended stepped
  have length : next.workers.length = scene.workers.length := by simp [workers]
  have outcome := Worker.outcome_of_step? followed.isSteady agenda goesOn
  have notCurrent : ¬ next.IsCurrent run := by
    rintro ⟨last, active⟩
    rw [now] at active
    exact ended (followed.current.mp ⟨last.trans length, active⟩)
  refine ⟨view.publish event, ?_, ?_, outcome.isSteady, outcome.stage agenda followed.stage,
    iff_of_false notCurrent overAfter, fun current => absurd current notCurrent, ?_, ?_⟩
  · rw [workers]
    exact List.getElem?_set_self (List.getElem?_eq_some_iff.mp followed.found).1
  · rw [deedsOf_work followed.found agenda]
    exact .work followed.life agenda goesOn
  · intro last
    rw [now]
    exact followed.counted (last.trans length)
  · intro last _
    rw [report, now]
    exact followed.state (last.trans length) ended

end Followed

namespace Scene

variable [Scalar α] {sequencer : Sequencer α} {past future : List (Turn α)}
variable {scene next last : Scene α} {act : Act α}

/-- A run that is followed up to a sound play is followed through the next act. -/
theorem Sound.followed_turn (sound : Sound sequencer past scene)
    (acted : scene.act? act = some next) {origin worker : Worker α} {first view : Board}
    {since : List (Turn α)} {run : Nat}
    (followed : Followed origin first since scene run worker view) :
    ∃ worker view, Followed origin first (since ++ [⟨scene, act⟩]) next run worker view := by
  have inBounds : run < scene.workers.length := (List.getElem?_eq_some_iff.mp followed.found).1
  cases change_of_act? acted with
  | begins runId free workers claimed silent =>
      subst silent
      have ended : ¬ scene.IsCurrent run := fun current => by simp [current.2] at free
      refine ⟨worker, view, followed.leave ended ?_ ?_ rfl⟩
      · simp only [workers, List.length_append, List.length_singleton]
        omega
      · rw [workers, List.getElem?_append_left inBounds]
        exact followed.found
  | @works other reply worker' after board acts found stepped changed =>
      subst acts
      have now : next.board = board := by rw [changed]; rfl
      have workers : next.workers = scene.workers.set other after := by rw [changed]
      by_cases same : run = other
      · subst same
        cases followed.found.symm.trans found
        by_cases current : scene.IsCurrent run
        · exact ⟨after, board, followed.work_of_current current stepped workers now⟩
        · exact ⟨after, followed.work_of_over (mt followed.current.mpr current) stepped workers
            now⟩
      · have silent : (⟨scene, .work other reply⟩ : Turn α).deed? run = none := by
          simp [Turn.deed?, Ne.symm same]
        have length : next.workers.length = scene.workers.length := by simp [workers]
        have kept : next.workers[run]? = some worker := by
          rw [workers, List.getElem?_set_ne (Ne.symm same)]
          exact followed.found
        by_cases current : scene.IsCurrent other
        · -- the worker of another run is at work, so this run is over
          have earlier : run + 1 ≠ scene.workers.length := by
            have last := current.1
            omega
          exact ⟨worker, view, followed.leave (fun current' => earlier current'.1)
            (length ▸ earlier) kept silent⟩
        · obtain ⟨_, _, _, followed', -⟩ := sound.follows found
          obtain ⟨event, _, _, _, rfl, _⟩ :=
            followed'.step_of_over (mt followed'.current.mpr current) stepped
          have foreign : scene.board.Foreign next.board := now ▸ scene.board.foreign_bus _
          exact ⟨worker, followed.wait foreign length kept silent⟩
  | others board foreign workers claimed silent =>
      have now : next.board = board := congrArg Sequencer.board claimed
      rw [← now] at foreign
      exact ⟨worker, followed.wait foreign (congrArg List.length workers)
        (workers ▸ followed.found) (silent run)⟩

/-- The latest run can be followed from its claim on. -/
theorem followed_of_begins {runId : String}
    (own : scene.sequencer = sequencer.withBoard scene.board)
    (workers : next.workers = scene.workers ++ [scene.sequencer.worker runId])
    (claimed : next.sequencer = scene.sequencer.withBoard
      { scene.board.resetControl with
        run := .running, work := WorkCounter.reset scene.sequencer.totalWork, active := [] }) :
    Followed (sequencer.worker runId) next.board [] next scene.workers.length
        (sequencer.worker runId) next.board ∧
      next.board.work = WorkCounter.reset sequencer.totalWork ∧ next.board.control = {} := by
  have board : next.board = { scene.board.resetControl with
      run := .running, work := WorkCounter.reset scene.sequencer.totalWork, active := [] } :=
    congrArg Sequencer.board claimed
  have same : scene.sequencer.worker runId = sequencer.worker runId := by rw [own]; rfl
  have isOpen : (sequencer.worker runId).IsOpen :=
    ⟨.report, by simp [Sequencer.worker, Worker.ofSteps], rfl⟩
  refine ⟨⟨?_, .begin, Worker.isSteady_ofSteps, Worker.stage_ofSteps ..,
    iff_of_true ⟨?_, ?_⟩ isOpen, fun _ => rfl, fun _ => rfl, fun _ ended => absurd isOpen ended⟩,
    ?_, ?_⟩
  · rw [workers, List.getElem?_append_right (Nat.le_refl _), Nat.sub_self, same]
    rfl
  · simp [workers]
  · rw [board]
    rfl
  · rw [board, own]
    rfl
  · rw [board]
    rfl

/-- A play is sound before anything has happened. -/
theorem sound_begin (sequencer : Sequencer α) : Sound sequencer [] sequencer.scene :=
  ⟨rfl, fun _ _ => rfl, nofun⟩

/-- A sound play stays so, whatever the next act is. -/
theorem Sound.turn (sound : Sound sequencer past scene) (acted : scene.act? act = some next) :
    Sound sequencer (past ++ [⟨scene, act⟩]) next := by
  have old : ∀ {run worker}, scene.workers[run]? = some worker →
      ∃ runId first worker view,
        Followed (sequencer.worker runId) first (past ++ [⟨scene, act⟩]) next run worker view ∧
          first.work = WorkCounter.reset sequencer.totalWork ∧ first.control = {} := by
    intro run worker found
    obtain ⟨runId, first, view, followed, fresh⟩ := sound.follows found
    obtain ⟨worker, view, later⟩ := sound.followed_turn acted followed
    exact ⟨runId, first, worker, view, later, fresh⟩
  have follows : ∀ {run worker}, run < scene.workers.length →
      next.workers[run]? = some worker → ∃ runId first view,
        Followed (sequencer.worker runId) first (past ++ [⟨scene, act⟩]) next run worker view ∧
          first.work = WorkCounter.reset sequencer.totalWork ∧ first.control = {} := by
    intro run worker inBounds found
    obtain ⟨runId, first, worker', view, followed, fresh⟩ :=
      old (List.getElem?_eq_getElem inBounds)
    cases followed.found.symm.trans found
    exact ⟨runId, first, view, followed, fresh⟩
  cases change_of_act? acted with
  | begins runId free workers claimed silent =>
      subst silent
      obtain ⟨claim, fresh⟩ := followed_of_begins sound.own workers claimed
      have length : next.workers.length = scene.workers.length + 1 := by simp [workers]
      refine ⟨?_, fun run beyond => ?_, fun {run worker} found => ?_⟩
      · rw [Scene.board, claimed, sound.own]
        rfl
      · rw [deedsOf_concat rfl]
        exact sound.beyond run (by omega)
      · rcases Nat.lt_or_ge run scene.workers.length with earlier | new
        · exact follows earlier found
        · have latest : run = scene.workers.length := by
            have inBounds := (List.getElem?_eq_some_iff.mp found).1
            omega
          subst latest
          cases claim.found.symm.trans found
          refine ⟨runId, next.board, next.board, { claim with life := ?_ }, fresh⟩
          rw [deedsOf_concat rfl, sound.beyond _ (Nat.le_refl _)]
          exact .begin
  | @works run reply worker after board acts found stepped changed =>
      subst acts
      have length : next.workers.length = scene.workers.length := by simp [changed]
      refine ⟨?_, fun other beyond => ?_, fun {other worker'} found' => ?_⟩
      · rw [changed]
        change scene.sequencer.withBoard board = sequencer.withBoard board
        rw [sound.own]
        rfl
      · rw [length] at beyond
        have different : run ≠ other := by
          have inBounds := (List.getElem?_eq_some_iff.mp found).1
          omega
        rw [deedsOf_concat (by simp [Turn.deed?, different])]
        exact sound.beyond other beyond
      · have inBounds := (List.getElem?_eq_some_iff.mp found').1
        exact follows (length ▸ inBounds) found'
  | others board foreign workers claimed silent =>
      refine ⟨?_, fun run beyond => ?_, fun {run worker} found => ?_⟩
      · rw [Scene.board, claimed, sound.own]
        rfl
      · rw [deedsOf_concat (silent run)]
        exact sound.beyond run (workers ▸ beyond)
      · have inBounds := (List.getElem?_eq_some_iff.mp found).1
        exact follows (workers ▸ inBounds) found

/-- Every play of a fresh sequencer is sound. -/
theorem Plays.sound (plays : sequencer.scene.Plays past scene) : Sound sequencer past scene := by
  induction plays with
  | begin => exact sound_begin sequencer
  | turn _ acted ih => exact ih.turn acted

/-- A run that is followed up to a scene is followed through all that comes after. -/
theorem Plays.followed (plays : sequencer.scene.Plays past scene)
    (later : scene.Plays future last) {origin worker : Worker α} {first view : Board}
    {since : List (Turn α)} {run : Nat}
    (followed : Followed origin first since scene run worker view) :
    ∃ worker view, Followed origin first (since ++ future) last run worker view := by
  induction later with
  | begin => exact ⟨worker, view, by simpa using followed⟩
  | turn more acted ih =>
      obtain ⟨worker, view, halfway⟩ := ih
      rw [← List.append_assoc]
      exact (plays.append more).sound.followed_turn acted halfway

end Scene

end Scan
