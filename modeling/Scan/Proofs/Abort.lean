import Scan.Proofs.Position
import Scan.Proofs.Run
import Scan.Proofs.Spacing

/-!
# Aborted runs

An abort that is asked for while a run is in progress is not taken back before the run is over. From
then on the worker does at most one more thing of each kind, starts no further top-level step if it
is within one, and is never held, so a worker that a pause has stopped goes on at once.
-/

namespace Scan

variable {α : Type}

/-- Nothing starts a further top-level step before the one in progress is over and a safe point is
passed. -/
theorem Worker.Stands.exposure_opening {step : Nat} {agenda : List (Task α)}
    (stands : Stands (some step) agenda) (spaced : Spaced .opening agenda) :
    exposure .opening agenda = 0 := by
  generalize position : some step = before at stands
  cases stands with
  | between => cases position
  | @within _ id inner rest nested apart =>
      cases position
      have own : exposure .opening inner = 0 := by
        clear spaced apart
        induction inner with
        | nil => rfl
        | cons task inner ih =>
            have nothing : task.reach .opening = 0 := by
              have nested := nested task List.mem_cons_self
              cases task <;> first | rfl | exact absurd nested Bool.false_ne_true
            have others := ih fun next member => nested next (List.mem_cons_of_mem _ member)
            rw [exposure_cons, nothing, others]
            split <;> rfl
      have behind := spaced.of_suffix.1
      have joined := exposure_append_le .opening inner (.announceFinish step id :: rest)
      have ended :
          exposure .opening (.announceFinish step id :: rest) = exposure .opening rest := by
        simp [exposure_cons, Task.reach, Task.isSafePoint]
      simp only [Task.load, if_true] at behind
      omega

section Plays

variable [Scalar α] {sequencer : Sequencer α} {past future : List (Turn α)}
variable {scene next last : Scene α} {position : Nat} {now : Instant}

/-- An abort that is asked for while a run is in progress is requested on the board. -/
theorem Scene.board_of_abort (aborts : scene.calls[position]? = some .abort)
    (active : scene.board.run.isActive = true)
    (acted : scene.act? (.access position now) = some next) :
    next.board = scene.board.requestAbort ∧ next.workers = scene.workers := by
  simp only [act?, aborts, Call.step, active, if_true] at acted
  cases acted
  exact ⟨rfl, rfl⟩

/-- The worker of a run that is over is never held. -/
theorem Followed.next_ne_held_of_over {origin worker : Worker α} {first view board : Board}
    {since : List (Turn α)} {run : Nat}
    (followed : Followed origin first since scene run worker view) (ended : ¬ worker.IsOpen) :
    worker.next board ≠ .held := by
  obtain ⟨report, -, suffix⟩ := followed.stage.exists_report ended
  cases agenda : worker.agenda with
  | nil => simp [Worker.next, agenda]
  | cons task rest =>
      obtain ⟨event, rfl⟩ := Worker.exists_event_of_suffix (agenda ▸ suffix) List.mem_cons_self
      simp [Worker.next, agenda]

/-- A run can be followed through an abort, and its worker sees the request from then on. -/
theorem Scene.Plays.followed_abort (plays : sequencer.scene.Plays past scene)
    (aborts : scene.calls[position]? = some .abort) {run : Nat} (current : scene.IsCurrent run)
    (acted : scene.act? (.access position now) = some next) :
    ∃ runId first worker view,
      Followed (sequencer.worker runId) first (past ++ [⟨scene, .access position now⟩]) next run
        worker view ∧ view.control.aborted = true := by
  obtain ⟨requested, workers⟩ := Scene.board_of_abort aborts current.2 acted
  have inBounds : run < next.workers.length := by
    rw [workers, ← current.1]
    exact Nat.lt_succ_self run
  obtain ⟨runId, first, view, followed, -⟩ :=
    (plays.turn acted).sound.follows (List.getElem?_eq_getElem inBounds)
  refine ⟨runId, first, next.workers[run], view, followed, ?_⟩
  have sees : view = next.board := followed.sees
    ⟨current.1.trans (congrArg List.length workers).symm, requested ▸ current.2⟩
  rw [sees, requested]
  rfl

variable {runId : String} {first view view' : Board} {since : List (Turn α)} {run : Nat}
variable {origin worker aborted : Worker α}

/-- The tasks of a run are spaced at any moment. -/
theorem Followed.spaced
    (followed : Followed (sequencer.worker runId) first since scene run worker view) (feat : Feat) :
    Worker.Spaced feat worker.agenda :=
  followed.life.spaced nofun (Worker.spaced_ofSteps feat ..)

/-- The worker of an aborted run goes on seeing the request. -/
theorem Followed.isAborted (later : Followed origin view since scene run worker view')
    (steady : origin.IsSteady) (requested : view.control.aborted = true) :
    view'.control.aborted = true :=
  later.life.aborted steady (fun other => other.aborted) requested

/-- What a worker does from an abort on is within its exposure at that moment. -/
theorem Followed.feats_le (later : Followed origin view since scene run worker view')
    (steady : origin.IsSteady) (requested : view.control.aborted = true) (feat : Feat) :
    featsIn feat (deedsOf run since) ≤ Worker.exposure feat origin.agenda := by
  have bound : featsIn feat (deedsOf run since) + worker.exposed feat ≤ origin.exposed feat :=
    later.life.feats_add_exposed_le steady (fun other => other.aborted) requested
  have exposed_le : origin.exposed feat ≤ Worker.exposure feat origin.agenda := by
    unfold Worker.exposed
    split
    · exact Nat.zero_le _
    · exact Nat.le_refl _
  omega

/-- A run that is aborted within a top-level step starts no other one. -/
theorem Followed.opens_nothing
    (followed : Followed (sequencer.worker runId) first past scene run aborted view)
    (later : Followed aborted view future last run worker view')
    (requested : view.control.aborted = true) {step : Nat}
    (within : inProgress (deedsOf run past) = some step) :
    featsIn .opening (deedsOf run future) = 0 := by
  have stands := followed.life.stands nofun (Worker.stands_ofSteps ..)
  rw [within] at stands
  have nothing := stands.exposure_opening (followed.spaced .opening)
  have used := later.feats_le followed.isSteady requested .opening
  omega

/-- A worker that sees an abort is not held, even after its run is over. -/
theorem Followed.next_ne_held (followed : Followed origin first since scene run worker view)
    (requested : view.control.aborted = true) : worker.next scene.board ≠ .held := by
  by_cases current : scene.IsCurrent run
  · rw [followed.sees current] at requested
    exact Worker.next_ne_held (by simp [RunControl.blocks, requested])
  · exact followed.next_ne_held_of_over (mt followed.current.mpr current)

/-- A worker that is not held and has something to do can act. -/
theorem Followed.exists_act? (followed : Followed origin first since scene run worker view)
    (free : worker.next scene.board ≠ .held) (busy : worker.agenda ≠ []) :
    ∃ reply, (scene.act? (.work run reply)).isSome = true := by
  obtain ⟨reply, stepped⟩ := Worker.exists_step? free busy
  exact ⟨reply, by simpa [Scene.act?, followed.found] using stepped⟩

/-- A request to abort is kept up to the end of the run, and the run does at most one more access,
evaluation, step without nested steps and unit of work. If it is within a top-level step, it starts
no other one. Its worker is not held. -/
theorem abort_is_heeded (plays : sequencer.scene.Plays past scene)
    (aborts : scene.calls[position]? = some .abort) (current : scene.IsCurrent run)
    (acted : scene.act? (.access position now) = some next) (later : next.Plays future last) :
    (last.IsCurrent run → last.board.control.aborted = true) ∧
      (∀ feat, featsIn feat (deedsOf run future) ≤ 1) ∧
      (∀ step, inProgress (deedsOf run past) = some step →
        featsIn .opening (deedsOf run future) = 0) ∧
      ∀ worker, last.workers[run]? = some worker →
        worker.next last.board ≠ .held ∧
          (worker.agenda ≠ [] → ∃ reply, (last.act? (.work run reply)).isSome = true) := by
  obtain ⟨runId, first, aborted, view, followed, requested⟩ :=
    plays.followed_abort aborts current acted
  obtain ⟨worker, view', after⟩ := (plays.turn acted).followed later followed.restart
  rw [List.nil_append] at after
  refine ⟨fun current => ?_, fun feat => ?_, fun step within => ?_, fun worker' found => ?_⟩
  · rw [← after.sees current]
    exact after.isAborted followed.isSteady requested
  · exact Nat.le_trans (after.feats_le followed.isSteady requested feat)
      (followed.spaced feat).exposure_le
  · have same : deedsOf run (past ++ [⟨scene, .access position now⟩]) = deedsOf run past :=
      deedsOf_concat rfl
    rw [← same] at within
    exact followed.opens_nothing after requested within
  · cases after.found.symm.trans found
    have free : worker.next last.board ≠ .held :=
      after.next_ne_held (after.isAborted followed.isSteady requested)
    exact ⟨free, after.exists_act? free⟩

/-- An abort within the first of two notes: the second one is never started. -/
theorem abort_within_first_note_is_heeded :
    ∃ (past future : List (Turn Float)) (last : Scene Float),
      inProgress (deedsOf 0 past) = some 1 ∧ last.board.run = .aborted ∧
        (∀ feat, featsIn feat (deedsOf 0 future) ≤ 1) ∧
        featsIn .opening (deedsOf 0 future) = 0 := by
  have rehearsed : Scene.rehearseAbort (α := Float)
      ⟨none, [.comment "first", .comment "second"]⟩ ⟨2000000⟩
      (.execute "run" :: (List.replicate 2 (Act.work 0 none) ++ [Act.work 0 (some (.told 0))] ++
        List.replicate 4 (Act.work 0 none)))
      (List.replicate 13 (Act.work 0 none) ++ [Act.work 0 (some (.told 0))] ++
        List.replicate 3 (Act.work 0 none))
      (fun past _ _ last =>
        inProgress (deedsOf 0 past) == some 1 && last.board.run == .aborted) = true := by
    with_unfolding_all decide
  obtain ⟨_, past, scene, next, future, last, -, plays, aborts, current, acted, later, test⟩ :=
    Scene.exists_of_rehearseAbort rehearsed
  rw [Bool.and_eq_true] at test
  obtain ⟨within, aborted⟩ := test
  obtain ⟨-, feats, opens, -⟩ := abort_is_heeded plays aborts current acted later
  exact ⟨past, future, last, eq_of_beq within, RunState.eq_of_beq aborted, feats,
    opens 1 (eq_of_beq within)⟩

end Plays

end Scan
