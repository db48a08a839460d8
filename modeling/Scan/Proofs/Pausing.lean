import Scan.Proofs.Abort
import Scan.Proofs.Exclusion

/-!
# Paused runs

That a run is paused is kept in two places: the state of the run and the request that holds its
worker. While a run is in progress the two always agree. So a worker that is held shows as paused,
one call to resume or to abort the run releases it, and no run hangs while it shows as running.
-/

namespace Scan

variable {α : Type}

/-- A board on which a run in progress is paused exactly if a pause is requested. -/
def Board.ShowsPause (board : Board) : Prop :=
  board.run.isActive = true → (board.control.paused = true ↔ board.run = .paused)

/-- Whether a call is one that controls a run, at its beginning. -/
def Call.isControl : Call → Bool
  | .pause | .resume | .abort | .skip => true
  | _ => false

/-- Whether a call takes a worker out of a pause. -/
def Call.releases : Call → Bool
  | .resume | .abort => true
  | _ => false

/-- Whether a call is about to ask for a pause. -/
def Call.isPause : Call → Bool
  | .pause => true
  | _ => false

theorem Call.isPause_iff {call : Call} : call.isPause = true ↔ call = .pause := by
  cases call <;> simp [isPause]

theorem RunState.ne_of_not_isActive {state : RunState} (inactive : state.isActive = false) :
    (state == .running) = false ∧ (state == .paused) = false := by
  cases state <;> first | exact ⟨rfl, rfl⟩ | exact absurd inactive.symm Bool.false_ne_true

namespace Board

variable {board after : Board} {company : Call → Prop}

theorem ShowsPause.of_same (shows : board.ShowsPause) (run : after.run = board.run)
    (control : after.control = board.control) : after.ShowsPause := by
  rw [ShowsPause, run, control]
  exact shows

/-- The calls change the state and the request together. -/
theorem ShowsPause.step (shows : board.ShowsPause) (call : Call) (totalWork : UInt64)
    (now : Instant) : (call.step totalWork now board).1.ShowsPause := by
  cases call with
  | pause =>
      simp only [Call.step]
      split
      · exact fun _ => iff_of_true rfl rfl
      · exact shows
  | resume =>
      simp only [Call.step]
      split
      · exact fun _ => iff_of_false Bool.false_ne_true fun resumed => by cases resumed
      · exact shows
  | abort =>
      simp only [Call.step]
      split <;> exact shows
  | skip | skipInnermost | skipTest | progressInnermost =>
      simp only [Call.step]
      split <;> exact shows
  | _ => exact shows

theorem ShowsPause.amid (shows : board.ShowsPause) (amid : board.Amid company after) :
    after.ShowsPause := by
  cases amid with
  | access totalWork now => exact shows.step _ totalWork now
  | aside bystander => exact shows.of_same bystander.run bystander.control

end Board

namespace Worker

variable [Scalar α] {board : Board} {worker : Worker α}

/-- Whether a worker is held at a safe point. -/
def isHeld (board : Board) (worker : Worker α) : Bool :=
  match worker.agenda with
  | .safePoint :: _ => board.control.blocks
  | _ => false

/-- A worker is held exactly at a safe point, by a request to pause that no abort overrides. -/
theorem next_eq_held : worker.next board = .held ↔
    (∃ rest, worker.agenda = .safePoint :: rest) ∧ board.control.blocks = true := by
  constructor
  · intro held
    have blocked : board.control.blocks = true := by
      cases free : board.control.blocks with
      | true => rfl
      | false => exact absurd held (next_ne_held free)
    cases agenda : worker.agenda with
    | nil => simp [next, agenda] at held
    | cons task rest =>
        cases task
        case safePoint => exact ⟨⟨rest, rfl⟩, blocked⟩
        all_goals
          simp only [next, agenda] at held
          (repeat' split at held) <;> cases held
  · rintro ⟨⟨rest, agenda⟩, blocked⟩
    simp [next, agenda, blocked]

theorem isHeld_iff : worker.isHeld board = true ↔ worker.next board = .held := by
  rw [next_eq_held]
  unfold isHeld
  split
  · rename_i rest agenda
    simp [agenda]
  · rename_i other
    simp only [Bool.false_eq_true, false_iff]
    rintro ⟨⟨rest, agenda⟩, -⟩
    exact other rest agenda

end Worker

section Plays

variable [Scalar α] {sequence : Sequence} {pollInterval : Duration} {sequencer : Sequencer α}
variable {past : List (Turn α)} {scene next : Scene α} {act : Act α} {run : Nat}
variable {worker : Worker α}

namespace Scene

/-- The state and the request agree after every act. -/
theorem Sound.showsPause_turn (sound : Sound sequencer past scene)
    (acted : scene.act? act = some next) (shows : scene.board.ShowsPause) :
    next.board.ShowsPause := by
  rcases amid_of_act? acted with ⟨runId, rfl, free, -⟩ | ⟨run, reply, rfl⟩ | ⟨-, -, amid, -⟩
  · simp only [act?, Sequencer.beginRun, free] at acted
    cases acted
    exact fun _ => iff_of_false Bool.false_ne_true fun resumed => by cases resumed
  · obtain ⟨-, -, control, -, same | ⟨-, inactive⟩⟩ := sound.states_of_work acted
    · exact shows.of_same same control
    · exact fun active => by simp [inactive] at active
  · exact shows.amid amid

/-- The state and the request agree at every moment. -/
theorem Plays.showsPause (accepted : Sequencer.ofSequence sequence pollInterval = .ok sequencer)
    (plays : sequencer.scene.Plays past scene) : scene.board.ShowsPause := by
  induction plays with
  | begin =>
      obtain ⟨-, -, same⟩ := Sequencer.ofSequence_eq_ok accepted
      rw [same]
      exact nofun
  | turn plays acted ih => exact plays.sound.showsPause_turn acted ih

/-- A worker that is held is the one of the run in progress. -/
theorem Sound.current_of_held (sound : Sound sequencer past scene)
    (found : scene.workers[run]? = some worker) (held : worker.next scene.board = .held) :
    scene.IsCurrent run := by
  obtain ⟨_, _, _, followed, -⟩ := sound.follows found
  by_cases current : scene.IsCurrent run
  · exact current
  · exact absurd held (followed.next_ne_held_of_over (mt followed.current.mpr current))

omit [Scalar α] in
/-- The access of a call that releases takes the hold from every worker. -/
theorem blocks_of_releases {call : Call} (releases : call.releases = true)
    (paused : scene.board.run = .paused) (totalWork : UInt64) (now : Instant) :
    (call.step totalWork now scene.board).1.control.blocks = false := by
  have shown : (scene.board.run == .paused) = true := by
    rw [paused]
    rfl
  have active : scene.board.run.isActive = true := by
    rw [paused]
    rfl
  cases call with
  | resume =>
      rw [Call.step, if_pos shown]
      rfl
  | abort =>
      rw [Call.step, if_pos active]
      exact Bool.and_false _
  | _ => exact absurd releases Bool.false_ne_true

omit [Scalar α] in
/-- Outside a run in progress the calls that control a run are over at once and do nothing. -/
theorem step_of_isControl (inactive : scene.board.run.isActive = false) {call : Call}
    (controls : call.isControl = true) (totalWork : UInt64) (now : Instant) :
    ∃ result, call.step totalWork now scene.board = (scene.board, .result result) := by
  obtain ⟨unstarted, unpaused⟩ := RunState.ne_of_not_isActive inactive
  cases call with
  | pause => exact ⟨_, by simp only [Call.step, unstarted]; rfl⟩
  | resume => exact ⟨_, by simp only [Call.step, unpaused]; rfl⟩
  | abort | skip => exact ⟨_, by simp only [Call.step, inactive]; rfl⟩
  | _ => exact absurd controls Bool.false_ne_true

omit [Scalar α] in
/-- Outside a run in progress no call touches the state of the run or the requests. -/
theorem same_of_inactive (inactive : scene.board.run.isActive = false) (call : Call)
    (totalWork : UInt64) (now : Instant) :
    (call.step totalWork now scene.board).1.run = scene.board.run ∧
      (call.step totalWork now scene.board).1.control = scene.board.control := by
  cases controls : call.isControl with
  | true =>
      obtain ⟨result, stepped⟩ := step_of_isControl inactive controls totalWork now
      rw [stepped]
      exact ⟨rfl, rfl⟩
  | false =>
      cases call with
      | pause | resume | abort | skip => exact absurd controls.symm Bool.false_ne_true
      | skipInnermost | skipTest | progressInnermost =>
          simp only [Call.step]
          split <;> exact ⟨rfl, rfl⟩
      | _ => exact ⟨rfl, rfl⟩

/-- A call in progress can always make its next access. -/
theorem exists_act?_access {call : Call} {position : Nat}
    (calls : scene.calls[position]? = some call) (now : Instant) :
    ∃ next, scene.act? (.access position now) = some next ∧
      next.workers = scene.workers ∧
      next.board = (call.step scene.sequencer.totalWork now scene.board).1 := by
  simp only [act?, calls]
  split <;> rename_i board _ stepped <;> exact ⟨_, rfl, rfl, by rw [stepped]; rfl⟩

/-- The state of a run in progress and the request that holds its worker always agree on whether the
run is paused. So a worker that is held shows as paused, the next access of a call to resume or to
abort releases it, and as long as the run shows as running no worker is stuck. Outside a run in
progress no call touches the state or the requests, and those that control a run do nothing. -/
theorem pause_shows_in_state
    (accepted : Sequencer.ofSequence sequence pollInterval = .ok sequencer)
    (plays : sequencer.scene.Plays past scene) :
    (scene.board.run.isActive = true →
        (scene.board.control.paused = true ↔ scene.board.run = .paused)) ∧
      (∀ run worker, scene.workers[run]? = some worker → worker.next scene.board = .held →
        scene.board.run = .paused ∧ scene.board.control.aborted = false ∧ scene.IsCurrent run ∧
        ∀ position call now, scene.calls[position]? = some call → call.releases = true →
          ∃ next reply, scene.act? (.access position now) = some next ∧
            next.workers[run]? = some worker ∧ worker.next next.board ≠ .held ∧
            (next.act? (.work run reply)).isSome = true) ∧
      (scene.board.run = .running → ∀ run worker, scene.workers[run]? = some worker →
        worker.agenda ≠ [] → ∃ reply, (scene.act? (.work run reply)).isSome = true) ∧
      (scene.board.run.isActive = false →
        ∀ position call now, scene.calls[position]? = some call →
          (call.isControl = true → scene.act? (.access position now) =
            some { scene with calls := scene.calls.eraseIdx position }) ∧
          ∀ next, scene.act? (.access position now) = some next →
            next.board.run = scene.board.run ∧ next.board.control = scene.board.control) := by
  have shows := plays.showsPause accepted
  refine ⟨shows, fun run worker found held => ?_, fun running run worker found busy => ?_,
    fun inactive position call now calls => ⟨fun controls => ?_, fun next acted => ?_⟩⟩
  · have current := plays.sound.current_of_held found held
    obtain ⟨⟨rest, agenda⟩, blocked⟩ := Worker.next_eq_held.mp held
    rw [RunControl.blocks, Bool.and_eq_true, Bool.not_eq_true'] at blocked
    have paused := (shows current.2).mp blocked.1
    refine ⟨paused, blocked.2, current, fun position call now calls releases => ?_⟩
    obtain ⟨next, acted, workers, board⟩ := exists_act?_access calls now
    have found' : next.workers[run]? = some worker := workers ▸ found
    have free : worker.next next.board ≠ .held :=
      Worker.next_ne_held (board ▸ blocks_of_releases releases paused _ now)
    obtain ⟨_, _, _, followed, -⟩ := (plays.turn acted).sound.follows found'
    obtain ⟨reply, goesOn⟩ := followed.exists_act? free (by simp [agenda])
    exact ⟨next, reply, acted, found', free, goesOn⟩
  · obtain ⟨_, _, _, followed, -⟩ := plays.sound.follows found
    apply followed.exists_act? (Worker.next_ne_held ?_) busy
    have unpaused : scene.board.control.paused ≠ true := by
      intro paused
      simp [(shows (by simp [running, RunState.isActive])).mp paused] at running
    simp [RunControl.blocks, unpaused]
  · obtain ⟨result, stepped⟩ :=
      step_of_isControl inactive controls scene.sequencer.totalWork now
    simp only [act?, calls, stepped]
    rfl
  · obtain ⟨_, own, -, board⟩ := exists_act?_access calls now
    cases own.symm.trans acted
    rw [board]
    exact same_of_inactive inactive call _ now

/-- A run that is paused before its first step, and a call that is about to resume it. -/
theorem held_run_is_released :
    ∃ (scene next : Scene Float) (worker : Worker Float) (reply : Option (Reply Float)),
      scene.workers[0]? = some worker ∧ worker.next scene.board = .held ∧
        scene.board.run = .paused ∧ scene.act? (.access 1 0) = some next ∧
        worker.next next.board ≠ .held ∧ (next.act? (.work 0 reply)).isSome = true := by
  have rehearsed : Scene.rehearse (α := Float) ⟨none, [.comment "note"]⟩ ⟨2000000⟩
      [.execute "run", .invoke .pause, .work 0 none, .access 0 0, .work 0 none,
        .work 0 (some (.told 0)), .work 0 none, .invoke .resume]
      (fun _ scene => scene.workers.length == 1 &&
        scene.workers.all (Worker.isHeld scene.board) &&
        (scene.calls[1]?).any Call.releases) = true := by
    with_unfolding_all decide
  obtain ⟨_, past, scene, accepted, plays, test⟩ := Scene.exists_of_rehearse rehearsed
  simp only [Bool.and_eq_true, List.all_eq_true] at test
  obtain ⟨⟨one, held⟩, resumes⟩ := test
  have length : scene.workers.length = 1 := eq_of_beq one
  have found : scene.workers[0]? = some scene.workers[0] := List.getElem?_eq_getElem _
  have holds := Worker.isHeld_iff.mp (held _ (List.mem_of_getElem? found))
  obtain ⟨-, heldRuns, -⟩ := pause_shows_in_state accepted plays
  obtain ⟨paused, -, -, released⟩ := heldRuns 0 _ found holds
  obtain ⟨call, waits, releases⟩ := (Option.any_eq_true _ _).mp resumes
  obtain ⟨next, reply, acted, -, free, goesOn⟩ := released 1 call 0 waits releases
  exact ⟨scene, next, _, reply, found, holds, paused, acted, free, goesOn⟩

end Scene

end Plays

end Scan
