import Mathlib.Data.List.Nodup
import Scan.Proofs.InProgress
import Scan.Proofs.Vetting

/-!
# Every step that is done has a monitor of its own

Whatever is done with a sequencer, no monitor is ever given to two steps: neither to two steps of
one run, nor to two passes through the body of a loop, nor to steps of different runs. So a number
stands for one occurrence of a step. Its monitor shows the description of the step and whether it
can be skipped, and goes on to do so.
-/

namespace Scan

variable {α : Type}

/-! ## What a monitor shows of its step -/

/-- What of a monitor belongs to its step for good: the description, and whether it can be skipped.
-/
def Monitor.face (monitor : Monitor) : String × Bool :=
  (monitor.description, monitor.skippable)

/-- What the monitor of a command shows for good. -/
def Command.face (command : Command α) : String × Bool :=
  (command.description, command.isSkippable)

/-- What leaves to every monitor what it shows for good. -/
def Board.Keeps (board after : Board) : Prop :=
  ∀ id, id < board.monitors.size →
    id < after.monitors.size ∧ (after.monitor id).face = (board.monitor id).face

namespace Board

mutual

/-- Whether the monitors from a number on show a command and the commands nested in it. -/
def Displays (board : Board) (first : Nat) : Command α → Prop
  | .group description children work =>
      first < board.monitors.size ∧
        (board.monitor first).face = (Command.group description children work).face ∧
        DisplaysAll board (first + 1) children
  | command => first < board.monitors.size ∧ (board.monitor first).face = command.face

/-- Whether the monitors from a number on show some commands in order. -/
def DisplaysAll (board : Board) (first : Nat) : List (Command α) → Prop
  | [] => True
  | command :: rest =>
      Displays board first command ∧ DisplaysAll board (first + command.monitorCount) rest

end

variable {board after last : Board} {first id : Nat} {command : Command α}
variable {commands : List (Command α)}

theorem Displays.face (displays : board.Displays first command) :
    first < board.monitors.size ∧ (board.monitor first).face = command.face := by
  cases command with
  | group =>
      rw [Displays] at displays
      exact ⟨displays.1, displays.2.1⟩
  | _ => exact displays

theorem Keeps.of_monitors (same : after.monitors = board.monitors) : board.Keeps after :=
  fun id exists_ => ⟨same ▸ exists_, by rw [monitor, same]; rfl⟩

theorem Keeps.refl (board : Board) : board.Keeps board :=
  .of_monitors rfl

theorem Keeps.trans (keeps : board.Keeps after) (later : after.Keeps last) : board.Keeps last := by
  intro id exists_
  obtain ⟨halfway, same⟩ := keeps id exists_
  obtain ⟨end_, still⟩ := later id halfway
  exact ⟨end_, still.trans same⟩

theorem Keeps.update (board : Board) (id : Nat) {change : Monitor → Monitor}
    (kept : ∀ monitor, (change monitor).face = Monitor.face monitor) :
    board.Keeps (board.update id change) := by
  intro other exists_
  refine ⟨(board.size_update id change).symm ▸ exists_, ?_⟩
  exact board.monitor_update_of id (·.face = (board.monitor other).face)
    (fun monitor same => (kept monitor).trans same) rfl

theorem Keeps.addCommands (board : Board) (commands : List (Command α)) :
    board.Keeps (board.addCommands commands) := by
  intro id exists_
  rw [size_addCommands, monitor_addCommands_of_lt board commands exists_]
  exact ⟨Nat.lt_add_right _ exists_, rfl⟩

mutual

theorem Displays.of_keeps (keeps : board.Keeps after) :
    (first : Nat) → (command : Command α) → board.Displays first command →
      after.Displays first command
  | first, .group description children work, displays => by
      rw [Displays] at displays ⊢
      obtain ⟨exists_, face, nested⟩ := displays
      obtain ⟨still, same⟩ := keeps first exists_
      exact ⟨still, same.trans face, DisplaysAll.of_keeps keeps (first + 1) children nested⟩
  | first, .delay .., ⟨exists_, face⟩ | first, .set .., ⟨exists_, face⟩
  | first, .wait .., ⟨exists_, face⟩ | first, .loop .., ⟨exists_, face⟩
  | first, .comment .., ⟨exists_, face⟩ =>
      ⟨(keeps first exists_).1, (keeps first exists_).2.trans face⟩

theorem DisplaysAll.of_keeps (keeps : board.Keeps after) :
    (first : Nat) → (commands : List (Command α)) → board.DisplaysAll first commands →
      after.DisplaysAll first commands
  | _, [], _ => by rw [DisplaysAll]; trivial
  | first, command :: rest, displays => by
      rw [DisplaysAll] at displays ⊢
      exact ⟨Displays.of_keeps keeps first command displays.1,
        DisplaysAll.of_keeps keeps (first + command.monitorCount) rest displays.2⟩

end

/-- A monitor that has just been added shows what it was made for. -/
theorem face_addMonitor (board : Board) (description : String) (skippable : Bool) :
    board.monitors.size < (board.addMonitor description skippable).monitors.size ∧
      ((board.addMonitor description skippable).monitor board.monitors.size).face =
        (description, skippable) := by
  rw [monitor_addMonitor, if_pos rfl]
  exact ⟨by simp [addMonitor], rfl⟩

theorem size_addCommand (board : Board) (command : Command α) :
    (board.addCommand command).monitors.size = board.monitors.size + command.monitorCount := by
  obtain ⟨fresh, added, size, -⟩ := board.exists_addCommand command
  rw [added, Array.size_append, size]

mutual

/-- Monitors that have just been made show their command. -/
theorem displays_addCommand (board : Board) :
    (command : Command α) → (board.addCommand command).Displays board.monitors.size command
  | .group description children work => by
      rw [addCommand, Displays]
      obtain ⟨exists_, face⟩ := board.face_addMonitor description
        (Command.group description children work).isSkippable
      obtain ⟨still, same⟩ := Keeps.addCommands
        (board.addMonitor description (Command.group description children work).isSkippable)
        children _ exists_
      refine ⟨still, same.trans face, ?_⟩
      have nested := displays_addCommands
        (board.addMonitor description (Command.group description children work).isSkippable)
        children
      rwa [addMonitor, Array.size_push] at nested
  | .delay .. | .set .. | .wait .. | .loop .. | .comment .. => board.face_addMonitor ..

/-- Monitors that have just been made show their commands. -/
theorem displays_addCommands (board : Board) : (commands : List (Command α)) →
    (board.addCommands commands).DisplaysAll board.monitors.size commands
  | [] => by rw [DisplaysAll]; trivial
  | command :: rest => by
      rw [addCommands, DisplaysAll]
      have others := displays_addCommands (board.addCommand command) rest
      rw [size_addCommand] at others
      exact ⟨.of_keeps (.addCommands _ rest) _ _ (displays_addCommand board command), others⟩

end

theorem DisplaysAll.of_mem_numbered (displays : board.DisplaysAll first commands)
    {frame : Frame α} (member : frame ∈ numbered first commands) :
    board.Displays frame.1 frame.2 := by
  induction commands generalizing first with
  | nil => cases member
  | cons command rest ih =>
      rw [DisplaysAll] at displays
      rcases List.mem_cons.mp member with rfl | member
      · exact displays.1
      · exact ih displays.2 member

end Board

/-- The steps that a task leads to or settles. -/
def Task.frames : Task α → List (Frame α)
  | .announceStart _ id command | .start id command | .enter id command | .settle id command =>
      [(id, command)]
  | .steps _ remaining => remaining
  | _ => []

theorem Task.frames_of_isErrand {task : Task α} (errand : task.isErrand = true) :
    task.frames = [] := by
  cases task <;> first | rfl | exact absurd errand Bool.false_ne_true

namespace Worker

theorem mem_frames_nestedTasks {frames : List (Frame α)} {frame : Frame α} {task : Task α}
    (member : task ∈ nestedTasks frames) (own : frame ∈ task.frames) : frame ∈ frames := by
  simp only [nestedTasks, List.mem_flatMap, List.mem_cons, List.not_mem_nil, or_false] at member
  obtain ⟨inner, found, rfl | rfl⟩ := member
  · cases own
  · cases List.mem_singleton.mp own
    exact found

/-- What a step leads to is displayed beside it. -/
theorem displays_of_mem_commandTasks {board : Board} {id : Nat} {command : Command α}
    {frame : Frame α} {task : Task α} (displays : board.Displays id command)
    (member : task ∈ commandTasks id command) (own : frame ∈ task.frames) :
    board.Displays frame.1 frame.2 := by
  cases command with
  | group =>
      rw [Board.Displays] at displays
      exact displays.2.2.of_mem_numbered (mem_frames_nestedTasks member own)
  | comment => cases member
  | delay | set | wait | loop =>
      simp only [commandTasks, List.mem_cons, List.not_mem_nil, or_false] at member
      rcases member with rfl | rfl | rfl | rfl | rfl <;> cases own

theorem frames_of_mem_iterationTasks [Scalar α] {id : Nat} {sweep : Sweep α}
    {body : List (Command α)} {iteration : Nat} {task : Task α}
    (member : task ∈ iterationTasks id sweep body iteration) : task.frames = [] := by
  simp only [iterationTasks, List.mem_append, List.mem_cons, List.not_mem_nil, or_false] at member
  rcases member with (rfl | member) | rfl | rfl | rfl
  · rfl
  · exact Task.frames_of_isErrand (isErrand_of_mem_writeTasks member)
  all_goals rfl

/-- The steps after the first one come behind it. -/
theorem mem_frames_stepTasks {step : Nat} {remaining : List (Frame α)} {frame : Frame α}
    {task : Task α} (member : task ∈ stepTasks step remaining) (own : frame ∈ task.frames) :
    frame ∈ remaining := by
  cases remaining with
  | nil => cases member
  | cons first rest =>
      simp only [stepTasks, List.mem_cons, List.not_mem_nil, or_false] at member
      rcases member with rfl | rfl | rfl | rfl | rfl
      · cases own
      · cases own
      · cases List.mem_singleton.mp own
        exact List.mem_cons_self
      · cases own
      · exact List.mem_cons_of_mem _ own

end Worker

section Steps

variable [Scalar α] {board after : Board} {worker next : Worker α} {task : Task α}
variable {rest more : List (Task α)} {reply : Option (Reply α)}

theorem Monitor.face_advance (monitor : Monitor) (status : StepStatus) :
    (monitor.advance status).face = monitor.face := by
  unfold advance
  split <;> rfl

/-- A worker leaves to every monitor what it shows for good. -/
theorem Task.keeps_faces_of_spawns (spawns : task.Spawns board worker reply after more) :
    board.Keeps after := by
  cases spawns with
  | start | settle | settleLeaf => exact .update board _ fun monitor => monitor.face_advance _
  | installLatch | stampStart | clearStart | removeLatch => exact .update board _ fun _ => rfl
  | nest | prepare => exact .addCommands board _
  | _ => exact .of_monitors rfl

/-- If the steps that a task leads to are displayed, so are those that the tasks in its place lead
to. -/
theorem Task.displays_of_spawns (displays : ∀ frame ∈ task.frames, board.Displays frame.1 frame.2)
    (spawns : task.Spawns board worker reply after more) :
    ∀ task ∈ more, ∀ frame ∈ task.frames, after.Displays frame.1 frame.2 := by
  intro next member frame own
  cases errand : task.isErrand
  case true =>
    rw [Task.frames_of_isErrand (Task.isErrand_of_spawns errand spawns next member)] at own
    cases own
  have keeps := Task.keeps_faces_of_spawns spawns
  cases spawns with
  | announceStart =>
      simp only [List.mem_cons, List.not_mem_nil, or_false] at member
      rcases member with rfl | rfl
      · exact .of_keeps keeps _ _ (displays frame own)
      · cases own
  | start =>
      cases List.mem_singleton.mp member
      exact .of_keeps keeps _ _ (displays frame own)
  | enter id command =>
      have whole : board.Displays id command := displays _ List.mem_cons_self
      rcases List.mem_append.mp member with member | member
      · exact .of_keeps keeps _ _ (Worker.displays_of_mem_commandTasks whole member own)
      · simp only [List.mem_cons, List.not_mem_nil, or_false] at member
        rcases member with rfl | rfl
        · cases List.mem_singleton.mp own
          exact .of_keeps keeps _ _ whole
        · cases own
  | nest body =>
      exact (board.displays_addCommands body).of_mem_numbered
        (Worker.mem_frames_nestedTasks member own)
  | round =>
      rw [Worker.frames_of_mem_iterationTasks member] at own
      cases own
  | prepare steps =>
      simp only [List.mem_cons, List.not_mem_nil, or_false] at member
      rcases member with rfl | rfl
      · cases own
      · exact (board.displays_addCommands steps).of_mem_numbered own
  | steps step remaining => exact displays frame (Worker.mem_frames_stepTasks member own)
  | countUnit | settleLeaf =>
      cases List.mem_singleton.mp member
      cases own
  | report =>
      simp only [List.mem_cons, List.not_mem_nil, or_false] at member
      rcases member with rfl | rfl | rfl <;> cases own
  | _ => first
    | exact absurd errand.symm Bool.false_ne_true
    | cases member

/-- A step of a worker leaves to every monitor what it shows for good. -/
theorem Worker.Outcome.keeps_faces (outcome : Outcome board worker task rest reply after next) :
    board.Keeps after := by
  cases outcome with
  | sound _ spawns | cleaning _ _ spawns => exact Task.keeps_faces_of_spawns spawns
  | broken => exact .of_monitors rfl

/-- If the steps that a worker has in front of it are displayed, they are so after its next step. -/
theorem Worker.Outcome.displays (outcome : Outcome board worker task rest reply after next)
    (displays : ∀ due ∈ task :: rest, ∀ frame ∈ due.frames, board.Displays frame.1 frame.2) :
    ∀ due ∈ next.agenda, ∀ frame ∈ due.frames, after.Displays frame.1 frame.2 := by
  obtain ⟨own, behind⟩ := List.forall_mem_cons.mp displays
  have later : ∀ due ∈ rest, ∀ frame ∈ due.frames, after.Displays frame.1 frame.2 :=
    fun due member frame mine => .of_keeps outcome.keeps_faces _ _ (behind due member frame mine)
  cases outcome with
  | sound _ spawns =>
      exact List.forall_mem_append.mpr ⟨Task.displays_of_spawns own spawns, later⟩
  | broken => exact fun due member => later due ((Worker.unwind_suffix _).mem member)
  | cleaning _ _ spawns =>
      have whole := List.forall_mem_append.mpr ⟨Task.displays_of_spawns own spawns, later⟩
      exact fun due member => whole due ((Worker.unwind_suffix _).mem member)

end Steps

/-! ## What is displayed in a play -/

/-- The steps in progress are those of before and the one that is entered. -/
theorem Task.mem_framesAfter {frames : List (Frame α)} {task : Task α} {frame : Frame α}
    (member : frame ∈ task.framesAfter frames) :
    frame ∈ frames ∨ task = .enter frame.1 frame.2 := by
  cases task with
  | enter =>
      rcases List.mem_cons.mp member with rfl | old
      · exact .inr rfl
      · exact .inl old
  | leave => exact .inl (List.mem_of_mem_tail member)
  | clearActive => cases member
  | _ => exact .inl member

/-- A control call leaves to every monitor what it shows for good. -/
theorem Call.keeps_faces_step (totalWork : UInt64) (now : Instant) (board : Board) (call : Call) :
    board.Keeps (call.step totalWork now board).1 := by
  cases call with
  | skipRecord id =>
      refine .update board id fun monitor => ?_
      unfold Monitor.recordSkip Monitor.release
      split <;> rfl
  | _ => first
    | exact .of_monitors rfl
    | simp only [step]
      split <;> exact .of_monitors rfl

namespace Scene

/-- The monitors of the steps that the workers are going to do, or have entered, show these steps.
-/
structure DisplaysSteps (past : List (Turn α)) (scene : Scene α) : Prop where
  ahead : ∀ {run : Nat} {worker : Worker α}, scene.workers[run]? = some worker →
    ∀ task ∈ worker.agenda, ∀ frame ∈ task.frames, scene.board.Displays frame.1 frame.2
  entered : ∀ {run : Nat} {frame : Frame α}, frame ∈ framesOf (deedsOf run past) →
    scene.board.Displays frame.1 frame.2

variable [Scalar α] {sequencer : Sequencer α} {past future : List (Turn α)}
variable {scene next last : Scene α} {act : Act α} {run : Nat}

/-- Nobody changes what a monitor shows for good. -/
theorem keeps_faces_of_act? (sound : Sound sequencer past scene)
    (acted : scene.act? act = some next) : scene.board.Keeps next.board := by
  rcases amid_of_act? acted with ⟨runId, rfl, free, -⟩ | ⟨run, reply, rfl⟩ | ⟨-, -, amid, -⟩
  · rw [(act?_execute free acted).2]
    exact .of_monitors rfl
  · obtain ⟨worker, board, after, found, stepped, rfl⟩ := exists_of_work acted
    obtain ⟨_, _, _, followed, -⟩ := sound.follows found
    obtain ⟨task, rest, agenda, -⟩ := Worker.step?_cases stepped
    exact (Worker.outcome_of_step? followed.isSteady agenda stepped).keeps_faces
  · generalize next.board = after at amid
    cases amid with
    | access totalWork now => exact Call.keeps_faces_step totalWork now scene.board _
    | aside bystander => exact .of_monitors bystander.monitors

theorem DisplaysSteps.turn (displays : DisplaysSteps past scene)
    (sound : Sound sequencer past scene)
    (acted : scene.act? act = some next) : DisplaysSteps (past ++ [⟨scene, act⟩]) next := by
  have keeps := keeps_faces_of_act? sound acted
  have still : ∀ {frame : Frame α}, scene.board.Displays frame.1 frame.2 →
      next.board.Displays frame.1 frame.2 := fun before => .of_keeps keeps _ _ before
  rcases amid_of_act? acted with ⟨runId, rfl, free, workers⟩ | ⟨run, reply, rfl⟩ |
    ⟨workers, -, -, silent⟩
  · refine ⟨fun {run worker} found task member frame own => ?_, fun {run frame} member => ?_⟩
    · rw [workers] at found
      rcases List.mem_append.mp (List.mem_of_getElem? found) with old | new
      · obtain ⟨position, old⟩ := List.mem_iff_getElem?.mp old
        exact still (displays.ahead old task member frame own)
      · cases List.mem_singleton.mp new
        simp only [Sequencer.worker, Worker.ofSteps, List.mem_cons, List.not_mem_nil, or_false]
          at member
        rcases member with rfl | rfl | rfl | rfl | rfl <;> cases own
    · rw [deedsOf_concat rfl] at member
      exact still (displays.entered member)
  · obtain ⟨worker, board, after, found, stepped, rfl⟩ := exists_of_work acted
    obtain ⟨_, _, _, followed, -⟩ := sound.follows found
    obtain ⟨task, rest, agenda, -⟩ := Worker.step?_cases stepped
    have before := displays.ahead found
    rw [agenda] at before
    refine ⟨fun {other mover} found' => ?_, fun {other frame} member => ?_⟩
    · by_cases same : run = other
      · subst same
        rw [List.getElem?_set_self (List.getElem?_eq_some_iff.mp found).1] at found'
        cases found'
        exact (Worker.outcome_of_step? followed.isSteady agenda stepped).displays before
      · rw [List.getElem?_set_ne same] at found'
        exact fun task member frame own => still (displays.ahead found' task member frame own)
    · by_cases same : run = other
      · subst same
        rw [deedsOf_work found agenda, framesOf_concat] at member
        rcases Task.mem_framesAfter member with old | rfl
        · exact still (displays.entered old)
        · exact still (before _ List.mem_cons_self frame List.mem_cons_self)
      · rw [deedsOf_concat (by simp [Turn.deed?, same])] at member
        exact still (displays.entered member)
  · refine ⟨fun found task member frame own => ?_, fun {run frame} member => ?_⟩
    · rw [workers] at found
      exact still (displays.ahead found task member frame own)
    · rw [deedsOf_concat (silent run)] at member
      exact still (displays.entered member)

/-- In every play the monitors show the steps that they were made for. -/
theorem Plays.displaysSteps (plays : sequencer.scene.Plays past scene) :
    DisplaysSteps past scene := by
  induction plays with
  | begin => exact ⟨nofun, nofun⟩
  | turn plays acted ih => exact ih.turn plays.sound acted

end Scene

/-! ## Started once -/

/-- The step that a task starts. -/
def Task.starts? : Task α → Option (Frame α)
  | .start id command => some (id, command)
  | _ => none

/-- The step that is started at a turn, and the run that it belongs to. -/
def Turn.starts? (turn : Turn α) : Option (Nat × Frame α) :=
  match turn.act with
  | .work run _ => (turn.deed? run).bind fun deed => deed.task.starts?.map (run, ·)
  | _ => none

theorem Task.eq_of_starts? {task : Task α} {frame : Frame α} (starts : task.starts? = some frame) :
    task = .start frame.1 frame.2 := by
  cases task with
  | start =>
      cases starts
      rfl
  | _ => cases starts

/-- What is started at a turn is started by the worker of a run. -/
theorem Turn.exists_deed_of_starts? {turn : Turn α} {run : Nat} {frame : Frame α}
    (starts : turn.starts? = some (run, frame)) :
    ∃ reply, turn.deed? run = some ⟨.start frame.1 frame.2, reply⟩ := by
  unfold starts? at starts
  split at starts
  · obtain ⟨⟨task, reply⟩, deed, starts⟩ := Option.bind_eq_some_iff.mp starts
    obtain ⟨own, starts, same⟩ := Option.map_eq_some_iff.mp starts
    cases same
    cases Task.eq_of_starts? starts
    exact ⟨reply, deed⟩
  · cases starts

theorem Turn.starts?_of_deed {turn : Turn α} {run : Nat} {frame : Frame α}
    {reply : Option (Reply α)} (deed : turn.deed? run = some ⟨.start frame.1 frame.2, reply⟩) :
    turn.starts? = some (run, frame) := by
  obtain ⟨scene, act⟩ := turn
  cases act with
  | work other reply =>
      by_cases same : other = run
      · subst same
        simp [starts?, deed, Task.starts?]
      · simp [deed?, same] at deed
  | _ => cases deed

/-- Only the run in progress does anything else than to publish an event. -/
theorem Followed.isCurrent_of_step [Scalar α] {origin worker after : Worker α}
    {first view board : Board} {since : List (Turn α)} {scene : Scene α} {run : Nat} {task : Task α}
    {rest : List (Task α)} {reply : Option (Reply α)}
    (followed : Followed origin first since scene run worker view)
    (stepped : worker.step? scene.board reply = some (board, after))
    (agenda : worker.agenda = task :: rest) (silent : ∀ event, task ≠ .announce event) :
    scene.IsCurrent run := by
  by_contra ended
  obtain ⟨event, _, announces, -⟩ :=
    followed.step_of_over (mt followed.current.mpr ended) stepped
  exact silent event (List.cons.inj (agenda.symm.trans announces)).1

namespace Scene

variable [Scalar α] {sequencer : Sequencer α} {past future : List (Turn α)}
variable {scene next last : Scene α} {act : Act α} {run id : Nat}

/-- A monitor that was used is so from then on. -/
theorem used_of_act? (sound : Sound sequencer past scene) (acted : scene.act? act = some next)
    (used : id < scene.board.monitors.size ∧ (scene.board.monitor id).status ≠ .idle) :
    id < next.board.monitors.size ∧ (next.board.monitor id).status ≠ .idle := by
  cases change_of_act? acted with
  | begins runId free workers claimed =>
      have board := congrArg Sequencer.board claimed
      rw [Scene.board, board]
      exact used
  | works _ found stepped changed =>
      subst changed
      obtain ⟨_, _, _, followed, -⟩ := sound.follows found
      obtain ⟨task, rest, agenda, -⟩ := Worker.step?_cases stepped
      exact (Worker.outcome_of_step? followed.isSteady agenda stepped).used used
  | others board foreign workers claimed =>
      have now : next.board = board := congrArg Sequencer.board claimed
      rw [now, foreign.size, foreign.status]
      exact used

/-- A step that is due has a monitor that was not used before, and uses it when it is started. -/
theorem Plays.used_of_start (plays : sequencer.scene.Plays past scene)
    (acted : scene.act? act = some next) {frame : Frame α}
    (starts : (⟨scene, act⟩ : Turn α).starts? = some (run, frame)) :
    (scene.board.monitor frame.1).status = .idle ∧
      frame.1 < next.board.monitors.size ∧ (next.board.monitor frame.1).status ≠ .idle := by
  obtain ⟨reply, deed⟩ := Turn.exists_deed_of_starts? starts
  cases act with
  | work other given =>
      by_cases same : other = run
      · subst same
        obtain ⟨worker, board, after, found, stepped, rfl⟩ := exists_of_work acted
        obtain ⟨task, rest, agenda, -⟩ := Worker.step?_cases stepped
        simp only [Turn.deed?, if_true, found, Option.bind_some, agenda, List.head?_cons,
          Option.map_some, Option.some.injEq, Deed.mk.injEq] at deed
        obtain ⟨rfl, rfl⟩ := deed
        obtain ⟨_, _, view, followed, -⟩ := plays.sound.follows found
        have current := followed.isCurrent_of_step stepped agenda fun event => by simp
        have numbered := followed.life.isNumbered (fun failed => by cases failed) id
          (Worker.isNumbered_ofSteps ..)
        rw [followed.sees current] at numbered
        have due := Worker.mem_fresh_of_start agenda
        exact ⟨numbered.idle _ due,
          (Worker.outcome_of_step? followed.isSteady agenda stepped).used_of_start
            (numbered.exist _ due) (numbered.canAdvance agenda)⟩
      · simp [Turn.deed?, same] at deed
  | _ => cases deed

/-- No monitor is used for two steps. -/
theorem Plays.nodup_starts (plays : sequencer.scene.Plays past scene) :
    ((past.filterMap Turn.starts?).map fun started => started.2.1).Nodup ∧
      ∀ id ∈ (past.filterMap Turn.starts?).map fun started => started.2.1,
        id < scene.board.monitors.size ∧ (scene.board.monitor id).status ≠ .idle := by
  induction plays with
  | begin => exact ⟨.nil, List.forall_mem_nil _⟩
  | @turn past scene next act plays acted ih =>
      obtain ⟨distinct, used⟩ := ih
      have still := fun id member => used_of_act? plays.sound acted (used id member)
      rw [List.filterMap_append, List.map_append]
      cases starts : (⟨scene, act⟩ : Turn α).starts? with
      | none =>
          rw [List.filterMap_cons_none starts, List.filterMap_nil, List.map_nil, List.append_nil]
          exact ⟨distinct, still⟩
      | some started =>
          obtain ⟨idle, now⟩ := plays.used_of_start acted starts
          rw [List.filterMap_cons_some starts, List.filterMap_nil, List.map_singleton]
          refine ⟨List.nodup_append.mpr ⟨distinct, List.nodup_singleton _, ?_⟩,
            List.forall_mem_append.mpr ⟨still, List.forall_mem_singleton.mpr now⟩⟩
          rintro old member _ new rfl
          cases List.mem_singleton.mp new
          exact (used _ member).2 idle

/-- A number stands for one step of one run. -/
theorem Plays.starts_unique (plays : sequencer.scene.Plays past scene)
    {first second : Nat × Frame α} (one : first ∈ past.filterMap Turn.starts?)
    (other : second ∈ past.filterMap Turn.starts?) (same : first.2.1 = second.2.1) :
    first = second :=
  List.inj_on_of_nodup_map plays.nodup_starts.1 one other same

end Scene

section Entering

variable [Scalar α] {board after : Board} {worker current : Worker α} {task : Task α}
variable {more : List (Task α)} {reply : Option (Reply α)}

/-- A step is entered only after it has been started. -/
theorem Task.eq_start_of_spawns (spawns : task.Spawns board worker reply after more) {id : Nat}
    {command : Command α} (member : .enter id command ∈ more) : task = .start id command := by
  cases errand : task.isErrand
  case true => cases Task.isErrand_of_spawns errand spawns _ member
  cases spawns with
  | start =>
      cases List.mem_singleton.mp member
      rfl
  | enter =>
      rcases List.mem_append.mp member with member | member
      · cases Worker.isBody_of_mem_commandTasks member
      · simp at member
  | nest => cases Worker.isBody_of_mem_nestedTasks member
  | round => cases Worker.isBody_of_mem_iterationTasks member
  | steps step remaining => cases remaining <;> simp [Worker.stepTasks] at member
  | _ => first
    | exact absurd errand.symm Bool.false_ne_true
    | simp at member

/-- Every step that is in progress, or is about to be entered, was started. -/
theorem Life.started_of_entered {others : Board → Board → Prop} {now : Board}
    {past : List (Deed α)} (life : Life others board worker past now current)
    (steady : worker.IsSteady) (start : ∀ id command, .enter id command ∉ worker.agenda) :
    (∀ frame ∈ framesOf past, ∃ deed ∈ past, deed.task = .start frame.1 frame.2) ∧
      ∀ id command, .enter id command ∈ current.agenda →
        ∃ deed ∈ past, deed.task = .start id command := by
  induction life with
  | begin =>
      exact ⟨List.forall_mem_nil _, fun id command member => absurd member (start id command)⟩
  | wait _ _ ih => exact ih
  | @work past now _ current _ task rest reply life agenda stepped ih =>
      obtain ⟨inProgress, ahead⟩ := ih
      have before : ∀ {id command}, (∃ deed ∈ past, deed.task = .start id command) →
          ∃ deed ∈ past ++ [⟨task, reply⟩], deed.task = .start id command :=
        fun ⟨deed, member, starts⟩ => ⟨deed, List.mem_append_left _ member, starts⟩
      rw [agenda] at ahead
      refine ⟨fun frame member => ?_, fun id command member => ?_⟩
      · rw [framesOf_concat] at member
        rcases Task.mem_framesAfter member with old | rfl
        · exact before (inProgress frame old)
        · exact before (ahead _ _ List.mem_cons_self)
      · have behind : .enter id command ∈ rest → ∃ deed ∈ past ++ [⟨task, reply⟩],
            deed.task = .start id command :=
          fun member => before (ahead id command (List.mem_cons_of_mem _ member))
        have due : ∀ {after : Board} {more : List (Task α)},
            task.Spawns now current reply after more → .enter id command ∈ more ++ rest →
            ∃ deed ∈ past ++ [⟨task, reply⟩], deed.task = .start id command := by
          intro after more spawns member
          rcases List.mem_append.mp member with new | old
          · exact ⟨_, List.mem_append_right _ List.mem_cons_self,
              Task.eq_start_of_spawns spawns new⟩
          · exact behind old
        cases Worker.outcome_of_step? (life.isSteady steady) agenda stepped with
        | sound _ spawns => exact due spawns member
        | broken => exact behind ((Worker.unwind_suffix _).mem member)
        | cleaning _ _ spawns => exact due spawns ((Worker.unwind_suffix _).mem member)

end Entering

/-- Every step in progress was started in the run in which it is so. -/
theorem Scene.Plays.mem_starts [Scalar α] {sequencer : Sequencer α} {past : List (Turn α)}
    {scene : Scene α} (plays : sequencer.scene.Plays past scene) {run : Nat} {frame : Frame α}
    (member : frame ∈ framesOf (deedsOf run past)) :
    (run, frame) ∈ past.filterMap Turn.starts? := by
  rcases Nat.lt_or_ge run scene.workers.length with inBounds | beyond
  · obtain ⟨_, _, _, followed, -⟩ := plays.sound.follows (List.getElem?_eq_getElem inBounds)
    obtain ⟨⟨task, reply⟩, found, starts⟩ := (followed.life.started_of_entered nofun
      (by simp [Sequencer.worker, Worker.ofSteps])).1 frame member
    subst starts
    obtain ⟨turn, past, deed⟩ := List.mem_filterMap.mp found
    exact List.mem_filterMap.mpr ⟨turn, past, Turn.starts?_of_deed deed⟩
  · rw [plays.sound.beyond run beyond] at member
    cases member

end Scan
