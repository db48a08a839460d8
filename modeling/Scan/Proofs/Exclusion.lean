import Scan.Proofs.Company
import Scan.Proofs.Spacing

/-!
# One at a time

Of all the runs and dry runs that are asked for around one sequencer at most one is in progress at
any moment. Whoever asks for another one meanwhile is told that the sequencer is busy, and nothing
comes of the request.
-/

namespace Scan

variable {α : Type}

/-- Whether a worker still has its report to write or the state of its run to set. -/
def Worker.isOpen (worker : Worker α) : Bool :=
  worker.agenda.any fun task => !task.isInner

theorem Worker.isOpen_eq_true {worker : Worker α} : worker.isOpen = true ↔ worker.IsOpen := by
  simp [isOpen, IsOpen]

/-- How many runs and dry runs are in progress. -/
def Scene.undertakings (scene : Scene α) : Nat :=
  scene.workers.countP Worker.isOpen + scene.passes

/-- Whether a turn is a request for a run or a dry run that is refused. -/
def Turn.isRefused (turn : Turn α) : Bool :=
  match turn.act with
  | .execute _ | .simulate => turn.scene.sequencer.isTaken
  | _ => false

/-! ## What a worker does to the states -/

section Steps

variable [Scalar α] {board after : Board} {worker next : Worker α} {task : Task α}
variable {more : List (Task α)} {reply : Option (Reply α)}

/-- A worker has no part in dry runs. -/
theorem Task.simulation_of_spawns (spawns : task.Spawns board worker reply after more) :
    after.simulation = board.simulation := by
  cases spawns with
  | nest | prepare => rw [Board.addCommands_eq]
  | _ => rfl

end Steps

namespace Call

variable (totalWork : UInt64) (now : Instant) (board : Board) (call : Call)

/-- A control call has no part in dry runs. -/
theorem simulation_step : (call.step totalWork now board).1.simulation = board.simulation := by
  cases call <;> simp only [step] <;> (try split) <;> rfl

end Call

namespace Scene

section Works

variable [Scalar α] {sequencer : Sequencer α} {past : List (Turn α)} {scene next : Scene α}
variable {act : Act α} {run : Nat} {reply : Option (Reply α)}

/-- What a worker does to the states: it leaves the requests and the state of the dry run as they
are, and the state of the run too unless it ends it. -/
theorem Sound.states_of_work (sound : Sound sequencer past scene)
    (acted : scene.act? (.work run reply) = some next) :
    next.workers.length = scene.workers.length ∧ next.passes = scene.passes ∧
      next.board.control = scene.board.control ∧
      next.board.simulation = scene.board.simulation ∧
      (next.board.run = scene.board.run ∨
        scene.IsCurrent run ∧ next.board.run.isActive = false) := by
  obtain ⟨worker, board, after, found, stepped, rfl⟩ := exists_of_work acted
  obtain ⟨_, _, view, followed, -⟩ := sound.follows found
  obtain ⟨task, rest, agenda, result⟩ := Worker.step?_cases stepped
  have states : board.control = scene.board.control ∧
      board.simulation = scene.board.simulation ∧
      (board.run = scene.board.run ∨ ∃ state, task = .setState state ∧ board.run = state) := by
    rcases result with ⟨more, spawns, -⟩ | ⟨error, -, rfl, -⟩
    · exact ⟨Task.control_of_spawns spawns, Task.simulation_of_spawns spawns,
        Worker.run_of_spawns spawns⟩
    · exact ⟨rfl, rfl, .inl rfl⟩
  obtain ⟨control, simulation, same | ⟨state, rfl, sets⟩⟩ := states
  · exact ⟨List.length_set .., rfl, control, simulation, .inl same⟩
  · have inactive := followed.stage.isActive_of_setState agenda
    have current : scene.IsCurrent run :=
      followed.current.mpr ⟨.setState state, by simp [agenda], rfl⟩
    refine ⟨List.length_set .., rfl, control, simulation, .inr ⟨current, ?_⟩⟩
    exact (congrArg RunState.isActive sets).trans inactive

end Works

/-! ## Never two at a time -/

/-- What the states say about the runs and dry runs in progress. -/
structure Exclusive (scene : Scene α) : Prop where
  staffed : scene.board.run.isActive = true → 0 < scene.workers.length
  passing : scene.passes = if scene.board.simulation = .simulating then 1 else 0
  apart : scene.board.run.isActive = true → scene.board.simulation ≠ .simulating

theorem exclusive_scene {sequencer : Sequencer α} (fresh : sequencer.board = {}) :
    sequencer.scene.Exclusive := by
  constructor <;> simp [Sequencer.scene, board, fresh, RunState.isActive]

/-- Only the beginning of a run or a dry run, and the end of a dry run, could break the exclusion. -/
theorem Exclusive.of_idle {scene next : Scene α} (exclusive : scene.Exclusive)
    (workers : next.workers.length = scene.workers.length) (passes : next.passes = scene.passes)
    (simulation : next.board.simulation = scene.board.simulation)
    (run : next.board.run.isActive = true → scene.board.run.isActive = true) :
    next.Exclusive where
  staffed := fun active => workers ▸ exclusive.staffed (run active)
  passing := by rw [passes, simulation, exclusive.passing]
  apart := fun active => simulation ▸ exclusive.apart (run active)

section Acts

variable [Scalar α] {sequencer : Sequencer α} {past : List (Turn α)} {scene next : Scene α}
variable {act : Act α}

omit [Scalar α] in
theorem isTaken_eq_false (scene : Scene α) : scene.sequencer.isTaken = false ↔
    scene.board.run.isActive = false ∧ scene.board.simulation ≠ .simulating := by
  rw [Sequencer.isTaken, Bool.or_eq_false_iff]
  exact and_congr_right fun _ => by
    change (scene.board.simulation == .simulating) = false ↔ _
    cases scene.board.simulation <;> decide

/-- The exclusion survives every act. -/
theorem Exclusive.turn (exclusive : scene.Exclusive) (sound : Sound sequencer past scene)
    (acted : scene.act? act = some next) : next.Exclusive := by
  cases act with
  | execute runId =>
      simp only [Scene.act?, Sequencer.beginRun] at acted
      cases taken : scene.sequencer.isTaken with
      | true =>
          simp only [taken] at acted
          cases acted
          exact exclusive
      | false =>
          simp only [taken] at acted
          cases acted
          obtain ⟨-, quiet⟩ := (isTaken_eq_false scene).mp taken
          exact ⟨fun _ => by simp, exclusive.passing, fun _ => quiet⟩
  | work run reply =>
      obtain ⟨workers, passes, -, simulation, same | ⟨-, inactive⟩⟩ := sound.states_of_work acted
      · exact exclusive.of_idle workers passes simulation fun active => same ▸ active
      · exact exclusive.of_idle workers passes simulation fun active => by simp [inactive] at active
  | invoke call =>
      simp only [Scene.act?] at acted
      split at acted
      · cases acted
        exact exclusive.of_idle rfl rfl rfl id
      · cases acted
  | access position now =>
      simp only [Scene.act?] at acted
      cases found : scene.calls[position]? with
      | none => simp [found] at acted
      | some call =>
          have foreign := call.foreign_step scene.sequencer.totalWork now scene.board
          have simulation := call.simulation_step scene.sequencer.totalWork now scene.board
          simp only [found] at acted
          split at acted <;> rename_i board _ stepped <;> rw [stepped] at foreign simulation <;>
            cases acted <;>
            exact exclusive.of_idle rfl rfl simulation fun active => foreign.isActive_eq ▸ active
  | simulate =>
      simp only [Scene.act?, Sequencer.beginSimulation] at acted
      cases taken : scene.sequencer.isTaken with
      | true =>
          simp only [taken] at acted
          cases acted
          exact exclusive
      | false =>
          simp only [taken] at acted
          cases acted
          obtain ⟨inactive, quiet⟩ := (isTaken_eq_false scene).mp taken
          have alone : scene.passes = 0 := exclusive.passing.trans (if_neg quiet)
          refine ⟨fun active => ?_, ?_, fun active => ?_⟩
          · exact exclusive.staffed active
          · exact congrArg (· + 1) alone
          · exact absurd active (Bool.eq_false_iff.mp inactive)
  | conclude result =>
      simp only [Scene.act?] at acted
      split at acted
      · cases acted
        have quiet : (scene.sequencer.endSimulation result).board.simulation ≠ .simulating := by
          intro busy
          cases result <;> cases busy
        have last : scene.passes ≤ 1 := by
          rw [exclusive.passing]
          split <;> omega
        refine ⟨exclusive.staffed, ?_, fun _ => quiet⟩
        exact (Nat.sub_eq_zero_of_le last).trans (if_neg quiet).symm
      · cases acted
  | subscribe | unsubscribe | collect =>
      cases acted
      exact exclusive.of_idle rfl rfl rfl id

/-- The exclusion holds at every moment. -/
theorem Plays.exclusive (plays : sequencer.scene.Plays past scene) (fresh : sequencer.board = {}) :
    scene.Exclusive := by
  induction plays with
  | begin => exact exclusive_scene fresh
  | turn plays acted ih => exact ih.turn plays.sound acted

/-! ## What is in progress -/

/-- The worker of the run in progress is the only one that is not over. -/
theorem Sound.countP_isOpen (sound : Sound sequencer past scene) (exclusive : scene.Exclusive) :
    scene.workers.countP Worker.isOpen = if scene.board.run.isActive then 1 else 0 := by
  have isOpen_iff : ∀ run worker, scene.workers[run]? = some worker →
      (worker.isOpen = true ↔ scene.IsCurrent run) := by
    intro run worker found
    obtain ⟨_, _, _, followed, -⟩ := sound.follows found
    rw [Worker.isOpen_eq_true, followed.current]
  split
  · rename_i active
    obtain ⟨earlier, latest, split⟩ := (List.eq_nil_or_concat scene.workers).resolve_left
      (List.ne_nil_of_length_pos (exclusive.staffed active))
    rw [List.concat_eq_append] at split
    have closed : earlier.countP Worker.isOpen = 0 := by
      rw [List.countP_eq_zero]
      intro worker member isOpen
      obtain ⟨run, inBounds, rfl⟩ := List.getElem_of_mem member
      have found : scene.workers[run]? = some earlier[run] := by
        rw [split, List.getElem?_append_left inBounds, List.getElem?_eq_getElem inBounds]
      have last := ((isOpen_iff run _ found).mp isOpen).1
      simp [split] at last
      omega
    have going : latest.isOpen = true := by
      refine (isOpen_iff earlier.length latest ?_).mpr ⟨?_, active⟩ <;> simp [split]
    rw [split, List.countP_append, closed, List.countP_singleton, if_pos going]
  · rename_i inactive
    rw [List.countP_eq_zero]
    intro worker member isOpen
    obtain ⟨run, found⟩ := List.getElem?_of_mem member
    exact inactive ((isOpen_iff run worker found).mp isOpen).2

/-- Something is in progress exactly as long as the states say so, and it is one thing only. -/
theorem Sound.undertakings_eq (sound : Sound sequencer past scene) (exclusive : scene.Exclusive) :
    scene.undertakings = if scene.sequencer.isTaken then 1 else 0 := by
  rw [undertakings, sound.countP_isOpen exclusive, exclusive.passing]
  cases active : scene.board.run.isActive with
  | true =>
      have taken : scene.sequencer.isTaken = true := Bool.or_eq_true_iff.mpr (.inl active)
      simp [exclusive.apart active, taken]
  | false =>
      have free := isTaken_eq_false scene
      simp only [active, true_and] at free
      cases taken : scene.sequencer.isTaken <;> simp_all

/-- A request that is refused leaves everything as it is. -/
theorem eq_of_isRefused (refused : (⟨scene, act⟩ : Turn α).isRefused = true)
    (acted : scene.act? act = some next) : next = scene := by
  cases act with
  | execute runId =>
      have taken : scene.sequencer.isTaken = true := refused
      simp only [Scene.act?, Sequencer.beginRun, taken, if_true] at acted
      exact (Option.some.inj acted).symm
  | simulate =>
      have taken : scene.sequencer.isTaken = true := refused
      simp only [Scene.act?, Sequencer.beginSimulation, taken, if_true] at acted
      exact (Option.some.inj acted).symm
  | _ => cases refused

/-- Without the requests that are refused the same things happen. -/
theorem Plays.without_refused {start : Scene α} (plays : start.Plays past scene) :
    start.Plays (past.filter (!·.isRefused)) scene := by
  induction plays with
  | begin => exact .begin
  | @turn past scene next act plays acted ih =>
      rw [List.filter_append]
      cases refused : (⟨scene, act⟩ : Turn α).isRefused with
      | true =>
          rw [eq_of_isRefused refused acted]
          simpa [refused] using ih
      | false => simpa [refused] using ih.turn acted

variable {sequence : Sequence} {pollInterval : Duration}

/-- Of all runs and dry runs that are asked for, at most one is in progress at any moment: there are
never two workers at work, two dry runs, or a worker next to a dry run. Meanwhile every request for
a run or a dry run is refused, and all the others come to the same without it. -/
theorem undertakings_exclude_each_other
    (accepted : Sequencer.ofSequence sequence pollInterval = .ok sequencer)
    (plays : sequencer.scene.Plays past scene) :
    scene.undertakings ≤ 1 ∧
      scene.workers.countP Worker.isOpen = (if scene.board.run.isActive then 1 else 0) ∧
      scene.passes = (if scene.board.simulation = .simulating then 1 else 0) ∧
      (scene.undertakings = 1 →
        (∀ runId, scene.sequencer.beginRun runId =
            .error (.busy ("sequencer is " ++ scene.board.run.name)) ∧
          scene.act? (.execute runId) = some scene) ∧
        (∀ profile evaluate runId, scene.sequencer.simulate profile evaluate runId =
          (.error (.busy "sequence is executing"), scene.sequencer)) ∧
        scene.act? .simulate = some scene) ∧
      sequencer.scene.Plays (past.filter (!·.isRefused)) scene := by
  have fresh : sequencer.board = {} := by
    obtain ⟨-, -, same⟩ := Sequencer.ofSequence_eq_ok accepted
    rw [same]
  have exclusive := plays.exclusive fresh
  have counted := plays.sound.undertakings_eq exclusive
  refine ⟨?_, plays.sound.countP_isOpen exclusive, exclusive.passing, fun busy => ?_,
    plays.without_refused⟩
  · rw [counted]
    split <;> omega
  · have taken : scene.sequencer.isTaken = true := by
      cases taken : scene.sequencer.isTaken
      · simp [counted, taken] at busy
      · rfl
    refine ⟨fun runId => ?_, fun profile evaluate runId => ?_, ?_⟩
    · simp [Scene.act?, Sequencer.beginRun, taken, board]
    · simp [Sequencer.simulate, Sequencer.beginSimulation, taken]
    · simp [Scene.act?, Sequencer.beginSimulation, taken]

/-- A run that is in progress while another run and a dry run are asked for. -/
theorem requests_within_run_are_refused :
    ∃ (past : List (Turn Float)) (scene : Scene Float),
      (past.filter Turn.isRefused).length = 2 ∧ scene.undertakings = 1 ∧
        scene.workers.countP Worker.isOpen = 1 ∧
        ∃ message, scene.sequencer.beginRun "third" = .error (.busy message) := by
  have rehearsed : Scene.rehearse (α := Float) ⟨none, [.comment "note"]⟩ ⟨2000000⟩
      [.simulate, .conclude (.ok ()), .execute "first", .work 0 none, .execute "second",
        .work 0 none, .simulate, .work 0 (some (.told 0))]
      (fun past scene => (past.filter Turn.isRefused).length == 2 && scene.undertakings == 1 &&
        scene.board.run.isActive) = true := by
    with_unfolding_all decide
  obtain ⟨_, past, scene, accepted, plays, test⟩ := Scene.exists_of_rehearse rehearsed
  simp only [Bool.and_eq_true, beq_iff_eq] at test
  obtain ⟨⟨two, busy⟩, active⟩ := test
  obtain ⟨-, isOpen, -, refuses, -⟩ := undertakings_exclude_each_other accepted plays
  rw [if_pos active] at isOpen
  exact ⟨past, scene, two, busy, isOpen, _, ((refuses busy).1 "third").1⟩

end Acts

end Scene

end Scan
