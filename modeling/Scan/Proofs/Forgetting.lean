import Scan.Proofs.Echoing
import Scan.Proofs.Hearing

/-!
# What a history leaves behind

Once nothing is in progress any more, whatever happened before has left a sequencer with nothing but
monitors, workers and subscribers of the past. The next run finds all else as the first run does, so
it goes as the first run would, and so does the next dry run.
-/

namespace Scan

variable {α : Type}

/-! ## The step shown -/

/-- Whether a task opens top-level steps. -/
def Task.opens : Task α → Bool
  | .openStep _ | .steps .. | .prepare _ => true
  | _ => false

theorem Task.opens_of_isNested {task : Task α} (nested : task.isNested = true) :
    task.opens = false := by
  cases task <;> first | rfl | exact absurd nested Bool.false_ne_true

/-- Only a task that opens steps puts others that do so on the agenda. -/
theorem Task.opens_of_spawns [Scalar α] {board after : Board} {worker : Worker α} {task : Task α}
    {reply : Option (Reply α)} {more : List (Task α)}
    (spawns : task.Spawns board worker reply after more) (apart : task.opens = false) :
    ∀ next ∈ more, next.opens = false := by
  intro next member
  cases nested : task.isNested
  case true => exact opens_of_isNested (isNested_of_spawns nested spawns next member)
  cases spawns with
  | announceStart | report =>
      simp only [List.mem_cons, List.not_mem_nil, or_false] at member
      rcases member with rfl | rfl | rfl <;> rfl
  | _ => first
    | exact absurd nested.symm Bool.false_ne_true
    | exact absurd apart.symm Bool.false_ne_true
    | cases member

/-- The step shown changes when one is opened, and it is cleared at the end. -/
theorem Task.currentStep_of_spawns [Scalar α] {board after : Board} {worker : Worker α}
    {task : Task α} {reply : Option (Reply α)} {more : List (Task α)}
    (spawns : task.Spawns board worker reply after more) :
    task.opens = true ∨ after.currentStep = 0 ∨
      task ≠ .clearStep ∧ after.currentStep = board.currentStep := by
  cases spawns with
  | openStep => exact .inl rfl
  | clearStep => exact .inr (.inl rfl)
  | nest | prepare =>
      rw [Board.addCommands_eq]
      exact .inr (.inr ⟨nofun, rfl⟩)
  | _ => exact .inr (.inr ⟨nofun, rfl⟩)

/-- An agenda on which every task that opens steps comes before one that clears the step shown. -/
def Worker.Sweeps : List (Task α) → Prop
  | [] => True
  | task :: rest => (task.opens = true → .clearStep ∈ rest) ∧ Sweeps rest

namespace Worker.Sweeps

variable {agenda more rest : List (Task α)} {task : Task α}

theorem of_suffix (sweeps : Sweeps agenda) (suffix : rest <:+ agenda) : Sweeps rest := by
  induction agenda with
  | nil => simpa [List.suffix_nil.mp suffix] using sweeps
  | cons first behind ih =>
      rcases List.suffix_cons_iff.mp suffix with rfl | shorter
      · exact sweeps
      · exact ih sweeps.2 shorter

theorem unwind (sweeps : Sweeps agenda) : Sweeps (unwind agenda) :=
  sweeps.of_suffix (unwind_suffix agenda)

/-- Tasks that open no steps may come in front. -/
theorem append (sweeps : Sweeps rest)
    (swept : ∀ next ∈ more, next.opens = true → .clearStep ∈ rest) : Sweeps (more ++ rest) := by
  induction more with
  | nil => exact sweeps
  | cons first others ih =>
      refine ⟨fun opens => ?_, ih fun next member => swept next (List.mem_cons_of_mem _ member)⟩
      exact List.mem_append_right _ (swept first List.mem_cons_self opens)

theorem of_spawns [Scalar α] {board after : Board} {worker : Worker α} {reply : Option (Reply α)}
    (sweeps : Sweeps (task :: rest)) (spawns : task.Spawns board worker reply after more) :
    Sweeps (more ++ rest) := by
  refine sweeps.2.append fun next member opens => ?_
  cases own : task.opens with
  | true => exact sweeps.1 own
  | false => simp [Task.opens_of_spawns spawns own next member] at opens

theorem ofSteps (steps : List (Command α)) (pollInterval : Duration) (runId : String)
    (name : Option String) (totalWork : UInt64) :
    Sweeps (ofSteps steps pollInterval runId name totalWork).agenda := by
  simp [Worker.ofSteps, Sweeps, Task.opens]

end Worker.Sweeps

/-- A step keeps the agenda sweeping. The step shown is cleared, or it will be, or it stays. -/
theorem Worker.sweeps_of_step? [Scalar α] {board after : Board} {worker next : Worker α}
    {reply : Option (Reply α)} (sweeps : Sweeps worker.agenda)
    (stepped : worker.step? board reply = some (after, next)) :
    Sweeps next.agenda ∧ (after.currentStep = 0 ∨ .clearStep ∈ next.agenda ∨
      after.currentStep = board.currentStep ∧ .clearStep ∉ worker.agenda) := by
  obtain ⟨task, rest, agenda, result⟩ := step?_cases stepped
  rw [agenda] at sweeps ⊢
  rcases result with ⟨more, spawns, rfl⟩ | ⟨error, fails, rfl, rfl⟩
  · have proceeds : ((worker.noting board task reply).proceed more).agenda = more ++ rest ∨
        ((worker.noting board task reply).proceed more).agenda = Worker.unwind (more ++ rest) := by
      simp only [proceed, agenda_noting, agenda, List.tail_cons]
      split
      · exact .inr rfl
      · exact .inl rfl
    have sweeping := sweeps.of_spawns spawns
    have kept : .clearStep ∈ rest →
        .clearStep ∈ ((worker.noting board task reply).proceed more).agenda := by
      intro member
      have behind : .clearStep ∈ more ++ rest := List.mem_append_right _ member
      rcases proceeds with same | same <;> rw [same]
      · exact behind
      · exact mem_unwind behind rfl
    refine ⟨?_, ?_⟩
    · rcases proceeds with same | same <;> rw [same]
      · exact sweeping
      · exact sweeping.unwind
    · rcases Task.currentStep_of_spawns spawns with opens | cleared | ⟨other, same⟩
      · exact .inr (.inl (kept (sweeps.1 opens)))
      · exact .inl cleared
      · by_cases ahead : .clearStep ∈ rest
        · exact .inr (.inl (kept ahead))
        · exact .inr (.inr ⟨same, by simp [ahead, Ne.symm other]⟩)
  · refine ⟨?_, ?_⟩
    · simpa [fail, agenda] using Sweeps.unwind sweeps.2
    · by_cases ahead : .clearStep ∈ rest
      · exact .inr (.inl (by simpa [fail, agenda] using mem_unwind ahead rfl))
      · refine .inr (.inr ⟨rfl, ?_⟩)
        rintro (_ | ⟨_, member⟩)
        · cases fails
        · exact ahead member

/-- A control call leaves the step shown and the steps in progress as they are. -/
theorem Call.shown_step (totalWork : UInt64) (now : Instant) (board : Board) (call : Call) :
    (call.step totalWork now board).1.currentStep = board.currentStep ∧
      (call.step totalWork now board).1.active = board.active := by
  constructor <;> cases call <;> simp only [step] <;> (try split) <;> rfl

/-- A run begins, a worker makes a step, or the workers, the step shown and the steps in progress are
left as they are. -/
theorem Scene.shown_of_act? [Scalar α] {scene next : Scene α} {act : Act α}
    (acted : scene.act? act = some next) :
    (∃ runId, next.workers = scene.workers ++ [scene.sequencer.worker runId] ∧
        next.board.currentStep = scene.board.currentStep) ∨
      (∃ run reply, act = .work run reply) ∨
      next.workers = scene.workers ∧ next.board.currentStep = scene.board.currentStep ∧
        next.board.active = scene.board.active := by
  cases act with
  | execute runId =>
      simp only [act?, Sequencer.beginRun] at acted
      cases taken : scene.sequencer.isTaken <;> simp only [taken] at acted <;> cases acted
      · exact .inl ⟨runId, rfl, rfl⟩
      · exact .inr (.inr ⟨rfl, rfl, rfl⟩)
  | work run reply => exact .inr (.inl ⟨run, reply, rfl⟩)
  | invoke call =>
      simp only [act?] at acted
      split at acted <;> cases acted
      exact .inr (.inr ⟨rfl, rfl, rfl⟩)
  | access position now =>
      simp only [act?] at acted
      cases found : scene.calls[position]? with
      | none => simp [found] at acted
      | some call =>
          have kept := call.shown_step scene.sequencer.totalWork now scene.board
          simp only [found] at acted
          split at acted <;> rename_i board _ stepped <;> rw [stepped] at kept <;> cases acted <;>
            exact .inr (.inr ⟨rfl, kept⟩)
  | simulate =>
      simp only [act?, Sequencer.beginSimulation] at acted
      cases taken : scene.sequencer.isTaken <;> simp only [taken] at acted <;> cases acted <;>
        exact .inr (.inr ⟨rfl, rfl, rfl⟩)
  | conclude result =>
      simp only [act?] at acted
      split at acted <;> cases acted
      exact .inr (.inr ⟨rfl, rfl, rfl⟩)
  | subscribe | unsubscribe | collect =>
      cases acted
      exact .inr (.inr ⟨rfl, rfl, rfl⟩)

namespace Scene

variable {scene next : Scene α} {act : Act α}

/-- A scene in which the step shown is none, or a worker will clear it. -/
structure IsSwept (scene : Scene α) : Prop where
  sweeps : ∀ worker ∈ scene.workers, Worker.Sweeps worker.agenda
  shown : scene.board.currentStep = 0 ∨ ∃ worker ∈ scene.workers, .clearStep ∈ worker.agenda

theorem IsSwept.of_same (swept : scene.IsSwept) (workers : next.workers = scene.workers)
    (currentStep : next.board.currentStep = scene.board.currentStep) : next.IsSwept where
  sweeps := workers ▸ swept.sweeps
  shown := by
    rw [workers, currentStep]
    exact swept.shown

variable [Scalar α]

theorem IsSwept.turn (swept : scene.IsSwept) (acted : scene.act? act = some next) :
    next.IsSwept := by
  rcases shown_of_act? acted with
    ⟨runId, workers, currentStep⟩ | ⟨run, reply, rfl⟩ | ⟨workers, currentStep, -⟩
  · refine ⟨fun worker member => ?_, ?_⟩
    · rw [workers] at member
      rcases List.mem_append.mp member with old | new
      · exact swept.sweeps worker old
      · cases List.mem_singleton.mp new
        exact .ofSteps ..
    · rw [workers, currentStep]
      refine swept.shown.imp_right ?_
      rintro ⟨worker, member, clears⟩
      exact ⟨worker, List.mem_append_left _ member, clears⟩
  · obtain ⟨worker, board, after, found, stepped, rfl⟩ := exists_of_work acted
    obtain ⟨sweeps, shown⟩ :=
      Worker.sweeps_of_step? (swept.sweeps worker (List.mem_of_getElem? found)) stepped
    have placed : (scene.workers.set run after)[run]? = some after :=
      List.getElem?_set_self (List.getElem?_eq_some_iff.mp found).1
    refine ⟨fun other there => ?_, ?_⟩
    · rcases List.mem_or_eq_of_mem_set there with old | rfl
      · exact swept.sweeps other old
      · exact sweeps
    · rcases shown with cleared | clears | ⟨same, own⟩
      · exact .inl cleared
      · exact .inr ⟨after, List.mem_of_getElem? placed, clears⟩
      · refine swept.shown.imp same.trans ?_
        rintro ⟨other, there, clears⟩
        obtain ⟨position, at_⟩ := List.getElem?_of_mem there
        have apart : run ≠ position := by
          rintro rfl
          cases found.symm.trans at_
          exact own clears
        exact ⟨other, List.mem_of_getElem? ((List.getElem?_set_ne apart).trans at_), clears⟩
  · exact swept.of_same workers currentStep

variable {sequencer : Sequencer α} {past : List (Turn α)}

/-- At every moment the step shown is none, or a worker will clear it. -/
theorem Plays.isSwept (plays : sequencer.scene.Plays past scene) (fresh : sequencer.board = {}) :
    scene.IsSwept := by
  induction plays with
  | begin =>
      refine ⟨List.forall_mem_nil _, .inl ?_⟩
      rw [Sequencer.scene, board, fresh]
  | turn _ acted ih => exact ih.turn acted

/-- At every moment nobody has a seat yet that is still to be given out. -/
theorem Plays.isOrderly (plays : sequencer.scene.Plays past scene) (fresh : sequencer.board = {}) :
    scene.board.bus.IsOrderly := by
  induction plays with
  | begin =>
      intro id _
      rw [Sequencer.scene, board, fresh]
      rfl
  | @turn _ scene _ act _ acted ih =>
      rw [bus_of_act? acted]
      cases (⟨scene, act⟩ : Turn α).event? with
      | some event => exact ih.publish event
      | none => exact ih.attend act

/-! ## Nothing in progress -/

omit [Scalar α] in
/-- A scene in which no call, no run and no dry run is in progress. -/
structure IsIdle (scene : Scene α) : Prop where
  calls : scene.calls = []
  passes : scene.passes = 0
  workers : ∀ worker ∈ scene.workers, worker.agenda = []

/-- With nothing in progress the board is free and no step is shown. -/
theorem Plays.free_of_isIdle (plays : sequencer.scene.Plays past scene)
    (fresh : sequencer.board = {}) (idle : scene.IsIdle) :
    scene.sequencer.isTaken = false ∧ scene.board.currentStep = 0 := by
  have exclusive := plays.exclusive fresh
  constructor
  · rw [isTaken_eq_false]
    have counted := plays.sound.countP_isOpen exclusive
    have none : scene.workers.countP Worker.isOpen = 0 := by
      rw [List.countP_eq_zero]
      intro worker member
      simp [Worker.isOpen, idle.workers worker member]
    have passing := exclusive.passing
    rw [idle.passes] at passing
    rw [none] at counted
    constructor
    · cases active : scene.board.run.isActive with
      | false => rfl
      | true => simp [active] at counted
    · intro simulating
      simp [simulating] at passing
  · refine (plays.isSwept fresh).shown.resolve_right ?_
    rintro ⟨worker, member, clears⟩
    simp [idle.workers worker member] at clears

/-! ## The next run -/

/-- A scene after someone has subscribed and a run has begun. -/
def opened (scene : Scene α) (runId : String) : Scene α :=
  { scene.withBoard { scene.board.resetControl with
      run := .running
      work := WorkCounter.reset scene.sequencer.totalWork
      active := []
      bus := scene.board.bus.subscribe } with
    workers := scene.workers ++ [scene.sequencer.worker runId] }

/-- Someone subscribes and a run begins. -/
theorem exists_play_opened (free : scene.sequencer.isTaken = false) (runId : String) :
    ∃ opening, scene.play [.subscribe, .execute runId] = some (opening, scene.opened runId) := by
  have subscribed : scene.act? .subscribe =
      some (scene.withBoard { scene.board with bus := scene.board.bus.subscribe }) := rfl
  have begun : (scene.withBoard { scene.board with bus := scene.board.bus.subscribe }).act?
      (.execute runId) = some (scene.opened runId) := by
    have free' : (scene.withBoard
        { scene.board with bus := scene.board.bus.subscribe }).sequencer.isTaken = false := free
    simp only [act?, Sequencer.beginRun, free']
    rfl
  rw [play, subscribed, Option.bind_eq_bind, Option.bind_some, play, begun]
  exact ⟨_, rfl⟩

/-- A run that begins with nothing in progress finds what a first run finds. -/
theorem Plays.recurs_opened (plays : sequencer.scene.Plays past scene)
    (fresh : sequencer.board = {}) (idle : scene.IsIdle) (runId runId' : String) :
    Recurs scene.legacy (sequencer.scene.opened runId) (scene.opened runId') := by
  obtain ⟨free, currentStep⟩ := plays.free_of_isIdle fresh idle
  obtain ⟨-, quiet⟩ := (isTaken_eq_false scene).mp free
  have own := plays.sound.own
  have total : scene.sequencer.totalWork = sequencer.totalWork := by
    rw [own]
    rfl
  have empty : sequencer.scene.board = {} := fresh
  have boards : Board.Recurs scene.board.monitors.size (sequencer.scene.opened runId).board
      (scene.opened runId').board := by
    constructor
    · rfl
    · change scene.board.simulation = .simulating ↔ sequencer.scene.board.simulation = .simulating
      rw [empty]
      exact iff_of_false quiet nofun
    · rfl
    · exact congrArg WorkCounter.reset total
    · rfl
    · change scene.board.monitors.size =
        scene.board.monitors.size + sequencer.scene.board.monitors.size
      rw [empty]
      rfl
    · intro id
      change (scene.board.monitor (scene.board.monitors.size + id)).undated =
        (sequencer.scene.board.monitor id).undated
      rw [empty]
      simp [Board.monitor, Array.getD_eq_getD_getElem?]
    · change scene.board.currentStep = sequencer.scene.board.currentStep
      rw [empty, currentStep]
  refine ⟨?_, boards, ?_, fun run => ?_, ?_, idle.passes⟩
  · simp only [opened, withBoard, own]
    rfl
  · exact List.length_append
  · change Option.Rel _ ([] ++ [sequencer.worker runId])[run]?
      (scene.workers ++ [scene.sequencer.worker runId'])[scene.workers.length + run]?
    rw [List.getElem?_append_right (Nat.le_add_right ..), Nat.add_sub_cancel_left, List.nil_append]
    cases run with
    | zero =>
        rw [own]
        exact .some (sequencer.recurs_worker _ _ runId runId')
    | succ run => exact .none
  · exact idle.calls

omit [Scalar α] in
/-- Before a run begins again there are no delays left. -/
theorem IsIdle.isLate_opened (idle : scene.IsIdle) (runId : String) :
    (scene.opened runId).IsLate := by
  intro worker member
  rcases List.mem_append.mp member with old | new
  · rw [idle.workers worker old]
    exact List.forall_mem_nil _
  · rw [List.mem_singleton.mp new]
    exact scene.sequencer.isLate_worker runId

variable {sequence : Sequence} {pollInterval : Duration}

/-- The report that a run has returned. -/
def returned? (scene : Scene α) (run : Nat) : Option RunReport :=
  scene.workers[run]?.bind fun worker => if worker.agenda.isEmpty then worker.report else none

omit [Scalar α] in
/-- Runs that recur return the same reports apart from names and times. -/
theorem Recurs.returned? {legacy : Legacy} {later : Scene α} (recurs : scene.Recurs legacy later)
    (run : Nat) :
    (later.returned? (legacy.runs + run)).map RunReport.bare =
      (scene.returned? run).map RunReport.bare := by
  simp only [Scene.returned?]
  rcases none_or_some_of_rel (recurs.workers run) with
    ⟨absent, absent'⟩ | ⟨worker, worker', found, found', workers⟩
  · rw [absent, absent']
  · rw [found, found', Option.bind_some, Option.bind_some]
    rcases workers.agenda_cases with ⟨done, done'⟩ | ⟨_, _, _, _, agenda, agenda', -⟩
    · rw [done, done']
      exact workers.report
    · rw [agenda, agenda']
      rfl

/-- What was done with a sequencer makes no difference any more once nothing is in progress. A dry
run makes the same calls as on a sequencer just made from the sequence, and returns the same report
or error. A run that someone listens to from the beginning goes as the first run of such a sequencer
goes in the same circumstances, whatever those may be: all runs from then on make the same calls to
the evaluator and to channels, all who subscribe from then on receive the same events, the reports
are the same, and what can be done next is the same, apart from the names of runs, from times that
make no difference, and from what those do who subscribed before. Whatever can happen to the first
run of a sequencer just made can happen to this one. -/
theorem history_is_forgotten
    (accepted : Sequencer.ofSequence sequence pollInterval = .ok sequencer)
    (plays : sequencer.scene.Plays past scene) (idle : scene.IsIdle) :
    ((∀ profile evaluate passId, (scene.sequencer.simulate profile evaluate passId).1 =
          (sequencer.simulate profile evaluate passId).1) ∧
        ∀ (m : Type → Type) [Monad m] (runner : DryRunner m α) profile,
          scene.sequencer.simulation runner profile = sequencer.simulation runner profile) ∧
      ∀ runId runId', ∃ opening opening' next next',
        sequencer.scene.play [.subscribe, .execute runId] = some (opening, next) ∧
        scene.play [.subscribe, .execute runId'] = some (opening', next') ∧
        next.workers = [sequencer.worker runId] ∧
        next'.workers = scene.workers ++ [sequencer.worker runId'] ∧
        (∀ future last, next.Plays future last →
          ∃ future' last', next'.Plays future' last' ∧ Turn.Echoes scene.legacy future future') ∧
        ∀ future last future' last', next.Plays future last → next'.Plays future' last' →
          Turn.Echoes scene.legacy future future' →
            (∀ run, callsIn (deedsOf (scene.legacy.runs + run) future') =
              callsIn (deedsOf run future)) ∧
            (∀ subscriber,
              (received (scene.legacy.seats + subscriber) future' last').map Event.bare =
                (received subscriber future last).map Event.bare) ∧
            (∀ run, (last'.returned? (scene.legacy.runs + run)).map RunReport.bare =
              (last.returned? run).map RunReport.bare) ∧
            ∀ act act', act.Mirrors scene.legacy last last' act' →
              (last'.act? act').isSome = (last.act? act).isSome := by
  have fresh : sequencer.board = {} := by
    obtain ⟨-, -, made⟩ := Sequencer.ofSequence_eq_ok accepted
    rw [made]
  have own := plays.sound.own
  have free := (plays.free_of_isIdle fresh idle).1
  have unused : sequencer.isTaken = false := by
    rw [Sequencer.isTaken, fresh]
    rfl
  refine ⟨⟨fun profile evaluate passId => ?_, fun m _ runner profile => ?_⟩,
    fun runId runId' => ?_⟩
  · simp only [Sequencer.simulate, Sequencer.beginSimulation, free, unused]
    rw [own]
    rfl
  · rw [own]
    rfl
  · have recurs := plays.recurs_opened fresh idle runId runId'
    have buses : (sequencer.scene.opened runId).board.bus.Recurs scene.legacy.seats
        (scene.opened runId').board.bus := by
      change Bus.Recurs scene.board.bus.next sequencer.board.bus.subscribe
        scene.board.bus.subscribe
      rw [fresh]
      exact (plays.isOrderly fresh).recurs.subscribe
    obtain ⟨opening, opens⟩ := sequencer.scene.exists_play_opened unused runId
    obtain ⟨opening', opens'⟩ := scene.exists_play_opened free runId'
    refine ⟨opening, opening', _, _, opens, opens', rfl, ?_, fun future last later => ?_, ?_⟩
    · change scene.workers ++ [scene.sequencer.worker runId'] = _
      rw [own]
      rfl
    · exact recurs.exists_echo buses (idle.isLate_opened runId') later
    · intro future last future' last' later later' echoes
      have agree := recurs.plays buses echoes later later'
      refine ⟨agree.calls, fun subscriber => ?_, agree.scenes.returned?, fun act act' mirrors => ?_⟩
      · simp only [received, List.map_append, agree.collected subscriber,
          agree.buses.inbox subscriber]
      · rcases none_or_some_of_rel (agree.scenes.act? mirrors) with
          ⟨stuck, stuck'⟩ | ⟨_, _, acted, acted', -⟩
        · rw [stuck, stuck']
        · rw [acted, acted', Option.isSome_some, Option.isSome_some]

/-- A run that comes after one that was aborted in a pause, and after a dry run that failed, goes as
the first run does: it evaluates, writes and reads back, and reports that it has finished. -/
theorem run_after_abort_goes_as_first :
    ∃ (scene last last' : Scene Rat) (future future' : List (Turn Rat))
      (report report' : RunReport),
      scene.board.control = ⟨true, true⟩ ∧ scene.board.run = .aborted ∧
        last.returned? 0 = some report ∧ report.state = .finished ∧
        last'.returned? 1 = some report' ∧ report'.bare = report.bare ∧
        (callsIn (deedsOf 1 future')).length = 3 ∧
        (received 1 future' last').map Event.bare = (received 0 future last).map Event.bare := by
  have aborted : Scene.rehearse (α := Rat)
      ⟨none, [(Descriptor.set "a" 0).withParam "value" (.string "x")]⟩ ⟨2000000⟩
      ([.subscribe, .execute "first"] ++ Scene.workActs 2 [(.told 0, 1)] ++
        [.invoke .pause, .access 0 0, .access 0 0, .invoke .abort, .access 0 0] ++
        Scene.workActs 4 [(.told 3, 3)] ++ [.simulate, .conclude (.error .interrupted)])
      (fun _ scene => scene.calls.isEmpty && scene.passes == 0 && scene.workers.length == 1 &&
        scene.workers.all (·.agenda.isEmpty) && scene.board.bus.next == 1 &&
        decide (scene.board.control = ⟨true, true⟩) && decide (scene.board.run = .aborted)) =
        true := by
    with_unfolding_all decide
  have finished : Scene.rehearse (α := Rat)
      ⟨none, [(Descriptor.set "a" 0).withParam "value" (.string "x")]⟩ ⟨2000000⟩ []
      (fun past scene => past.isEmpty && match scene.play [.subscribe, .execute "run"] with
        | some (_, next) =>
            match next.play (Scene.workActs 2 [(.told 0, 6), (.evaluated (.ok 1), 0),
              (.wrote (.ok ()), 1), (.told 1, 0), (.told 1, 1), (.found (.ok 1), 11),
              (.told 3, 3)]) with
            | some (future, last) => (callsIn (deedsOf 0 future)).length == 3 &&
                (last.returned? 0).any fun report => decide (report.state = .finished)
            | none => false
        | none => false) = true := by
    with_unfolding_all decide
  obtain ⟨sequencer, past, scene, accepted, plays, test⟩ := Scene.exists_of_rehearse aborted
  obtain ⟨_, nothing, start, accepted', begins, goes⟩ := Scene.exists_of_rehearse finished
  simp only [Bool.and_eq_true, List.isEmpty_iff, List.all_eq_true, decide_eq_true_eq,
    beq_iff_eq] at test goes
  obtain ⟨⟨⟨⟨⟨⟨calls, passes⟩, one⟩, done⟩, seat⟩, control⟩, state⟩ := test
  obtain ⟨rfl, goes⟩ := goes
  cases begins.eq_of_nil
  cases accepted.symm.trans accepted'
  obtain ⟨-, reruns⟩ := history_is_forgotten accepted plays ⟨calls, passes, done⟩
  obtain ⟨opening, _, next, next', opens, -, -, -, echo, same⟩ := reruns "run" "second"
  simp only [opens] at goes
  split at goes
  · rename_i future last played
    simp only [Bool.and_eq_true, beq_iff_eq, Option.any_eq_true, decide_eq_true_eq] at goes
    obtain ⟨three, report, returned, finishes⟩ := goes
    have later := plays_of_play played
    obtain ⟨future', last', later', echoes⟩ := echo future last later
    obtain ⟨asked, heard, reports, -⟩ := same future last future' last' later later' echoes
    have runs : scene.legacy.runs = 1 := one
    have seats : scene.legacy.seats = 1 := seat
    have asked := asked 0
    have reports := reports 0
    rw [runs, Nat.add_zero] at asked reports
    rw [returned] at reports
    obtain ⟨report', returned', alike⟩ := Option.map_eq_some_iff.mp reports
    refine ⟨scene, last, last', future, future', report, report', control, state, returned,
      finishes, returned', alike, ?_, ?_⟩
    · rw [asked, three]
    · have heard := heard 0
      rwa [seats, Nat.add_zero] at heard
  · cases goes

end Scene

end Scan
