import Scan.Proofs.Run

/-!
# What a run completes

Whatever is done to a run and whatever its surroundings answer, the units of work that it completes
are the first ones of the expansion of its steps, and the counter shows how many they are. A run
that is reported as finished has completed all of them.
-/

namespace Scan

variable {α : Type}

/-- The units of work that a run completes in some turns, in order. A unit is complete when it is
counted. -/
def completions (run : Nat) (turns : List (Turn α)) : List (WorkUnit α) :=
  (deedsOf run turns).flatMap fun deed => deed.task.counts

variable [Scalar α] {sequence : Sequence} {pollInterval : Duration} {sequencer : Sequencer α}
variable {past : List (Turn α)} {scene : Scene α} {run : Nat} {worker : Worker α}

/-- The completed units of a run are a first part of the expansion. -/
theorem completions_isPrefix (plays : sequencer.scene.Plays past scene)
    (begun : scene.workers[run]? = some worker) :
    completions run past <+: Command.expandAll sequencer.steps := by
  obtain ⟨runId, first, view, followed, -⟩ := plays.sound.follows begun
  rw [← Ledger.left_units_ofSteps sequencer.steps sequencer.pollInterval runId
    sequencer.sequence.name sequencer.totalWork]
  apply (Ledger.units α).done_isPrefix followed.life nofun
  · intro board task reply error fails
    cases fails <;> rfl
  · intro task cleans
    cases task <;> first | rfl | exact absurd cleans Bool.false_ne_true

/-- The counter that a worker sees shows how many units it has completed. -/
theorem Followed.toNat_performed {runId : String} {first view : Board}
    (accepted : Sequencer.ofSequence sequence pollInterval = .ok sequencer)
    (plays : sequencer.scene.Plays past scene)
    (followed : Followed (sequencer.worker runId) first past scene run worker view)
    (fresh : first.work = WorkCounter.reset sequencer.totalWork) :
    view.work.performed.toNat = (completions run past).length := by
  have fits : (completions run past).length ≤ sequencer.totalWork.toNat := by
    rw [Sequencer.toNat_totalWork accepted]
    exact (completions_isPrefix plays followed.found).length_le
  have counted := followed.life.performed_eq nofun fun other => other.work
  rw [fresh, WorkCounter.reset, UInt64.zero_add] at counted
  rw [counted, UInt64.toNat_ofNat']
  exact Nat.mod_eq_of_lt (Nat.lt_of_le_of_lt fits sequencer.totalWork.toNat_lt)

/-- The counter shows how many units the latest run has completed. -/
theorem toNat_performed (accepted : Sequencer.ofSequence sequence pollInterval = .ok sequencer)
    (plays : sequencer.scene.Plays past scene) (begun : scene.workers[run]? = some worker)
    (latest : run + 1 = scene.workers.length) :
    scene.board.work.performed.toNat = (completions run past).length := by
  obtain ⟨runId, first, view, followed, fresh, -⟩ := plays.sound.follows begun
  rw [← followed.counted latest]
  exact followed.toNat_performed accepted plays fresh

/-- The counter never goes down while a run is the latest one. -/
theorem performed_le_of_act? (accepted : Sequencer.ofSequence sequence pollInterval = .ok sequencer)
    (plays : sequencer.scene.Plays past scene) (begun : scene.workers[run]? = some worker)
    (latest : run + 1 = scene.workers.length) {act : Act α} {next : Scene α}
    (acted : scene.act? act = some next) (same : next.workers.length = scene.workers.length) :
    scene.board.work.performed ≤ next.board.work.performed := by
  have inBounds : run < next.workers.length := by omega
  rw [UInt64.le_iff_toNat_le, toNat_performed accepted plays begun latest,
    toNat_performed accepted (plays.turn acted) (List.getElem?_eq_getElem inBounds)
      (latest.trans same.symm)]
  rw [completions, completions, deedsOf_append, List.flatMap_append, List.length_append]
  exact Nat.le_add_right _ _

/-- What a run completes under any interleaving and any behaviour of its surroundings: a first part
of the expansion, one unit after another, each of which the counter counts once; and everything if
the run is finished. -/
theorem run_completes_in_order
    (accepted : Sequencer.ofSequence sequence pollInterval = .ok sequencer)
    (plays : sequencer.scene.Plays past scene) (begun : scene.workers[run]? = some worker) :
    completions run past <+: Command.expandAll sequencer.steps ∧
      (run + 1 = scene.workers.length →
        scene.board.work.performed.toNat = (completions run past).length ∧
        scene.board.work.performed ≤ sequencer.totalWork ∧
        (∀ act next, scene.act? act = some next → next.workers.length = scene.workers.length →
          scene.board.work.performed ≤ next.board.work.performed) ∧
        (scene.board.run = .finished →
          ∃ report, worker.report = some report ∧ report.state = .finished)) ∧
      ∀ report, worker.report = some report → report.state = .finished →
        completions run past = Command.expandAll sequencer.steps ∧
        report.workPerformed = sequencer.totalWork ∧
        report.stepsCompleted = sequencer.steps.length := by
  refine ⟨completions_isPrefix plays begun, fun latest => ?_, fun report reported finished => ?_⟩
  · refine ⟨toNat_performed accepted plays begun latest, ?_,
      fun act next => performed_le_of_act? accepted plays begun latest, fun finished => ?_⟩
    · rw [UInt64.le_iff_toNat_le, toNat_performed accepted plays begun latest,
        Sequencer.toNat_totalWork accepted]
      exact (completions_isPrefix plays begun).length_le
    · obtain ⟨runId, first, view, followed, -⟩ := plays.sound.follows begun
      have ended : ¬ worker.IsOpen := by
        rw [← followed.current]
        rintro ⟨-, active⟩
        simp [finished, RunState.isActive] at active
      obtain ⟨report, reported, state⟩ := followed.state latest ended
      exact ⟨report, reported, state.symm.trans finished⟩
  · obtain ⟨runId, first, view, followed, fresh, -⟩ := plays.sound.follows begun
    obtain ⟨units, -, steps, performed⟩ :=
      followed.life.accounts_of_finished (fun other => other.work) reported finished
    refine ⟨units, ?_, steps⟩
    rw [performed, ← UInt64.toNat_inj, followed.toNat_performed accepted plays fresh,
      Sequencer.toNat_totalWork accepted]
    exact congrArg List.length units

/-- A group of one note and another note, run to the end. -/
theorem run_of_two_notes_completes_in_order :
    ∃ (sequencer : Sequencer Float) (past : List (Turn Float)) (scene : Scene Float)
      (worker : Worker Float) (report : RunReport),
      scene.workers[0]? = some worker ∧ worker.report = some report ∧
        completions 0 past = Command.expandAll sequencer.steps ∧
        scene.board.work.performed.toNat = (completions 0 past).length ∧
        report.workPerformed = sequencer.totalWork ∧
        report.stepsCompleted = sequencer.steps.length := by
  have rehearsed : Scene.rehearse (α := Float)
      ⟨none, [.group [.comment "first"], .comment "second"]⟩ ⟨2000000⟩
      (.execute "run" :: (List.replicate 2 (Act.work 0 none) ++ [Act.work 0 (some (.told 0))] ++
        List.replicate 32 (Act.work 0 none) ++ [Act.work 0 (some (.told 0))] ++
        List.replicate 3 (Act.work 0 none)))
      (fun _ scene => scene.workers.length == 1 && scene.board.run == .finished) = true := by
    with_unfolding_all decide
  obtain ⟨sequencer, past, scene, accepted, plays, test⟩ := Scene.exists_of_rehearse rehearsed
  rw [Bool.and_eq_true] at test
  obtain ⟨one, finished⟩ := test
  have length : scene.workers.length = 1 := eq_of_beq one
  have begun : scene.workers[0]? = some scene.workers[0] := List.getElem?_eq_getElem _
  obtain ⟨-, latest, whole⟩ := run_completes_in_order accepted plays begun
  obtain ⟨counted, -, -, ended⟩ := latest length.symm
  obtain ⟨report, reported, state⟩ := ended (RunState.eq_of_beq finished)
  obtain ⟨everything, performed, completed⟩ := whole report reported state
  exact ⟨sequencer, past, scene, _, report, begun, reported, everything, counted, performed,
    completed⟩

end Scan
