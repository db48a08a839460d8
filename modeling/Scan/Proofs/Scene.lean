import Scan.Proofs.Accounts
import Scan.Sequencer

/-!
# Scenes

A scene is a sequencer together with all that goes on around it: the workers of its runs, the
control calls and the dry runs in progress. One act is one atomic step of any of them, and a play is
any sequence of acts, so what holds at the end of every play holds under every interleaving. Seen
from the worker of one run a play is a life of it.
-/

namespace Scan

variable {α : Type}

/-- A sequencer and all that goes on around it. -/
structure Scene (α : Type) where
  sequencer : Sequencer α
  /-- The workers of all the runs that were begun, oldest first. -/
  workers : List (Worker α) := []
  /-- The control calls in progress. -/
  calls : List Call := []
  /-- How many dry runs are in progress. -/
  passes : Nat := 0

/-- One atomic step of anyone. -/
inductive Act (α : Type) where
  /-- Asks for a run, which may be refused. -/
  | execute (runId : String)
  /-- One step of the worker of a run. -/
  | work (run : Nat) (reply : Option (Reply α))
  /-- Begins a control call. -/
  | invoke (call : Call)
  /-- One access of a control call in progress. -/
  | access (position : Nat) (now : Instant)
  /-- Asks for a dry run, which may be refused. -/
  | simulate
  /-- Ends a dry run. -/
  | conclude (result : Except ScanError Unit)
  | subscribe
  | unsubscribe (id : Nat)
  | collect (id : Nat)

/-- Whether a call is at its beginning. -/
def Call.isEntry : Call → Bool
  | .pause | .resume | .abort | .skip | .progress => true
  | _ => false

/-- The worker of a run of a sequencer. -/
def Sequencer.worker (sequencer : Sequencer α) (runId : String) : Worker α :=
  .ofSteps sequencer.steps sequencer.pollInterval runId sequencer.sequence.name
    sequencer.totalWork

/-- A sequencer before anything has happened to it. -/
def Sequencer.scene (sequencer : Sequencer α) : Scene α where
  sequencer := sequencer

namespace Scene

/-- The board of the sequencer. -/
def board (scene : Scene α) : Board :=
  scene.sequencer.board

/-- The scene with another board. -/
def withBoard (scene : Scene α) (board : Board) : Scene α :=
  { scene with sequencer := scene.sequencer.withBoard board }

/-- Whether a run is the one in progress. -/
def IsCurrent (scene : Scene α) (run : Nat) : Prop :=
  run + 1 = scene.workers.length ∧ scene.board.run.isActive = true

/-- What comes of an act, if it is possible. A request that is refused changes nothing. -/
def act? [Scalar α] (scene : Scene α) : Act α → Option (Scene α)
  | .execute runId =>
      match scene.sequencer.beginRun runId with
      | .ok (claimed, worker) =>
          some { scene with sequencer := claimed, workers := scene.workers ++ [worker] }
      | .error _ => some scene
  | .work run reply =>
      match scene.workers[run]? with
      | some worker =>
          (worker.step? scene.board reply).map fun (board, worker) =>
            { scene.withBoard board with workers := scene.workers.set run worker }
      | none => none
  | .invoke call =>
      if call.isEntry then some { scene with calls := scene.calls ++ [call] } else none
  | .access position now =>
      match scene.calls[position]? with
      | some call =>
          match call.step scene.sequencer.totalWork now scene.board with
          | (board, .more next) =>
              some { scene.withBoard board with calls := scene.calls.set position next }
          | (board, .result _) =>
              some { scene.withBoard board with calls := scene.calls.eraseIdx position }
      | none => none
  | .simulate =>
      match scene.sequencer.beginSimulation with
      | .ok claimed => some { scene with sequencer := claimed, passes := scene.passes + 1 }
      | .error _ => some scene
  | .conclude result =>
      if 0 < scene.passes then
        some { scene with
          sequencer := scene.sequencer.endSimulation result, passes := scene.passes - 1 }
      else none
  | .subscribe => some (scene.withBoard { scene.board with bus := scene.board.bus.subscribe })
  | .unsubscribe id =>
      some (scene.withBoard { scene.board with bus := scene.board.bus.unsubscribe id })
  | .collect id => some (scene.withBoard { scene.board with bus := scene.board.bus.collect id })

end Scene

/-- An act with the scene in which it takes place. -/
structure Turn (α : Type) where
  scene : Scene α
  act : Act α

/-- What the worker of a run does at a turn. -/
def Turn.deed? (turn : Turn α) (run : Nat) : Option (Deed α) :=
  match turn.act with
  | .work other reply =>
      if other = run then
        turn.scene.workers[run]?.bind fun worker => worker.agenda.head?.map (⟨·, reply⟩)
      else none
  | _ => none

/-- What the worker of a run does at some turns. -/
def deedsOf (run : Nat) (turns : List (Turn α)) : List (Deed α) :=
  turns.filterMap (·.deed? run)

@[simp] theorem deedsOf_append (run : Nat) (first second : List (Turn α)) :
    deedsOf run (first ++ second) = deedsOf run first ++ deedsOf run second :=
  List.filterMap_append

namespace Scene

variable [Scalar α]

/-- The turns that lead from one scene to another. -/
inductive Plays (start : Scene α) : List (Turn α) → Scene α → Prop where
  | begin : Plays start [] start
  | turn {past : List (Turn α)} {scene next : Scene α} {act : Act α}
      (plays : Plays start past scene) (acted : scene.act? act = some next) :
      Plays start (past ++ [⟨scene, act⟩]) next

/-- A play goes on in another one that begins where it ends. -/
theorem Plays.append {start middle scene : Scene α} {first second : List (Turn α)}
    (plays : start.Plays first middle) (later : middle.Plays second scene) :
    start.Plays (first ++ second) scene := by
  induction later with
  | begin => simpa using plays
  | turn _ acted ih =>
      rw [← List.append_assoc]
      exact .turn ih acted

/-- Plays some acts, if they are possible one after another. -/
def play (scene : Scene α) : List (Act α) → Option (List (Turn α) × Scene α)
  | [] => some ([], scene)
  | act :: rest => do
      let next ← scene.act? act
      let (turns, last) ← next.play rest
      return (⟨scene, act⟩ :: turns, last)

theorem plays_of_play {acts : List (Act α)} {scene last : Scene α} {turns : List (Turn α)}
    (played : scene.play acts = some (turns, last)) : scene.Plays turns last := by
  induction acts generalizing scene turns with
  | nil =>
      cases played
      exact .begin
  | cons act rest ih =>
      simp only [play, Option.bind_eq_bind, Option.bind_eq_some_iff, Option.pure_def] at played
      obtain ⟨next, acted, ⟨later, last⟩, played, made⟩ := played
      cases made
      exact (Plays.turn .begin acted).append (ih played)

/-- Plays some acts around the sequencer of a sequence and tests what comes of them. -/
def rehearse (sequence : Sequence) (pollInterval : Duration) (acts : List (Act α))
    (test : List (Turn α) → Scene α → Bool) : Bool :=
  match Sequencer.ofSequence sequence pollInterval with
  | .ok sequencer =>
      match sequencer.scene.play acts with
      | some (turns, scene) => test turns scene
      | none => false
  | .error _ => false

theorem exists_of_rehearse {sequence : Sequence} {pollInterval : Duration} {acts : List (Act α)}
    {test : List (Turn α) → Scene α → Bool}
    (passed : rehearse sequence pollInterval acts test = true) :
    ∃ sequencer turns scene, Sequencer.ofSequence sequence pollInterval = .ok sequencer ∧
      sequencer.scene.Plays turns scene ∧ test turns scene = true := by
  unfold rehearse at passed
  split at passed
  · rename_i sequencer accepted
    split at passed
    · rename_i turns scene played
      exact ⟨sequencer, turns, scene, accepted, plays_of_play played, passed⟩
    · cases passed
  · cases passed

/-- The acts of the first worker, which makes some steps without a reply and then, for each reply,
the step that takes it and some more. -/
def workActs (steps : Nat) : List (Reply α × Nat) → List (Act α)
  | [] => List.replicate steps (.work 0 none)
  | (reply, more) :: rest =>
      List.replicate steps (.work 0 none) ++ .work 0 (some reply) :: workActs more rest

/-- Plays some acts up to a moment when the first run is in progress and a call is about to abort
it, and then others from the abort on, and tests what comes of them. -/
def rehearseAbort (sequence : Sequence) (pollInterval : Duration) (before after : List (Act α))
    (test : List (Turn α) → Scene α → List (Turn α) → Scene α → Bool) : Bool :=
  rehearse sequence pollInterval (before ++ [.invoke .abort]) fun past scene =>
    match scene.calls, scene.act? (.access 0 0) with
    | .abort :: _, some next =>
        match next.play after with
        | some (future, last) =>
            scene.workers.length == 1 && scene.board.run.isActive && test past next future last
        | none => false
    | _, _ => false

theorem exists_of_rehearseAbort {sequence : Sequence} {pollInterval : Duration}
    {before after : List (Act α)} {test : List (Turn α) → Scene α → List (Turn α) → Scene α → Bool}
    (passed : rehearseAbort sequence pollInterval before after test = true) :
    ∃ sequencer past scene next future last,
      Sequencer.ofSequence sequence pollInterval = .ok sequencer ∧
      sequencer.scene.Plays past scene ∧ scene.calls[0]? = some .abort ∧ scene.IsCurrent 0 ∧
      scene.act? (.access 0 0) = some next ∧ next.Plays future last ∧
      test past next future last = true := by
  obtain ⟨sequencer, past, scene, accepted, plays, aborted⟩ := exists_of_rehearse passed
  split at aborted
  · rename_i rest next calls acted
    split at aborted
    · rename_i future last played
      simp only [Bool.and_eq_true] at aborted
      obtain ⟨⟨one, active⟩, test⟩ := aborted
      refine ⟨sequencer, past, scene, next, future, last, accepted, plays, ?_, ?_, acted,
        plays_of_play played, test⟩
      · rw [calls]
        rfl
      · exact ⟨(eq_of_beq one).symm, active⟩
    · cases aborted
  · cases aborted

/-- Plays some acts up to a moment, then one act and others after it, and tests what comes of
them. -/
def rehearseAround (sequence : Sequence) (pollInterval : Duration) (before : List (Act α))
    (act : Act α) (after : List (Act α))
    (test : Scene α → Scene α → List (Turn α) → Scene α → Bool) : Bool :=
  rehearse sequence pollInterval before fun _ scene =>
    match scene.act? act with
    | some next =>
        match next.play after with
        | some (future, last) => test scene next future last
        | none => false
    | none => false

theorem exists_of_rehearseAround {sequence : Sequence} {pollInterval : Duration}
    {before after : List (Act α)} {act : Act α}
    {test : Scene α → Scene α → List (Turn α) → Scene α → Bool}
    (passed : rehearseAround sequence pollInterval before act after test = true) :
    ∃ sequencer past scene next future last,
      Sequencer.ofSequence sequence pollInterval = .ok sequencer ∧
      sequencer.scene.Plays past scene ∧ scene.act? act = some next ∧ next.Plays future last ∧
      test scene next future last = true := by
  obtain ⟨sequencer, past, scene, accepted, plays, goesOn⟩ := exists_of_rehearse passed
  split at goesOn
  · rename_i next acted
    split at goesOn
    · rename_i future last played
      exact ⟨sequencer, past, scene, next, future, last, accepted, plays, acted,
        plays_of_play played, goesOn⟩
    · cases goesOn
  · cases goesOn

/-! ## What an act can do -/

omit [Scalar α] in
@[simp] theorem board_withBoard (scene : Scene α) (board : Board) :
    (scene.withBoard board).board = board := rfl

omit [Scalar α] in
@[simp] theorem workers_withBoard (scene : Scene α) (board : Board) :
    (scene.withBoard board).workers = scene.workers := rfl

/-- What comes of an act: a run begins, a worker makes a step, or others do what they may do to the
board. -/
inductive Change (scene : Scene α) (act : Act α) (next : Scene α) : Prop where
  | begins (runId : String) (free : scene.board.run.isActive = false)
      (workers : next.workers = scene.workers ++ [scene.sequencer.worker runId])
      (sequencer : next.sequencer = scene.sequencer.withBoard
        { scene.board.resetControl with
          run := .running, work := WorkCounter.reset scene.sequencer.totalWork, active := [] })
      (silent : act = .execute runId)
  | works {run : Nat} {reply : Option (Reply α)} {worker after : Worker α} {board : Board}
      (acts : act = .work run reply) (found : scene.workers[run]? = some worker)
      (stepped : worker.step? scene.board reply = some (board, after))
      (changed : next =
        { scene.withBoard board with workers := scene.workers.set run after })
  | others (board : Board) (foreign : scene.board.Foreign board)
      (workers : next.workers = scene.workers)
      (sequencer : next.sequencer = scene.sequencer.withBoard board)
      (silent : ∀ run, (⟨scene, act⟩ : Turn α).deed? run = none)

end Scene

namespace Board

theorem Foreign.refl (board : Board) : board.Foreign board :=
  ⟨.inl rfl, id, rfl, rfl, fun _ => rfl⟩

theorem foreign_bus (board : Board) (bus : Bus) : board.Foreign { board with bus := bus } :=
  ⟨.inl rfl, id, rfl, rfl, fun _ => rfl⟩

theorem foreign_simulation (board : Board) (simulation : SimulationState) :
    board.Foreign { board with simulation := simulation } :=
  ⟨.inl rfl, id, rfl, rfl, fun _ => rfl⟩

/-- Passing a request to skip on leaves every status as it is. -/
theorem foreign_recordSkip (board : Board) (id : Nat) :
    board.Foreign (board.update id Monitor.recordSkip) := by
  refine ⟨.inl rfl, fun aborted => aborted, rfl, board.size_update id _,
    board.status_update id _ ?_⟩
  intro monitor
  unfold Monitor.recordSkip Monitor.release
  split <;> rfl

end Board

theorem RunState.eq_of_beq {left right : RunState} (same : (left == right) = true) :
    left = right := by
  cases left <;> cases right <;> first | rfl | exact absurd same (by decide)

/-- A control call does to the board what others may do to it. -/
theorem Call.foreign_step (totalWork : UInt64) (now : Instant) (board : Board) (call : Call) :
    board.Foreign (call.step totalWork now board).1 := by
  cases call with
  | pause =>
      simp only [step]
      split
      · rename_i running
        refine ⟨.inr ⟨?_, rfl⟩, id, rfl, rfl, fun _ => rfl⟩
        rw [RunState.eq_of_beq running]
        rfl
      · exact .refl board
  | resume =>
      simp only [step]
      split
      · rename_i paused
        refine ⟨.inr ⟨?_, rfl⟩, id, rfl, rfl, fun _ => rfl⟩
        rw [RunState.eq_of_beq paused]
        rfl
      · exact .refl board
  | announce => exact board.foreign_bus _
  | abort =>
      simp only [step]
      split
      · exact ⟨.inl rfl, fun _ => rfl, rfl, rfl, fun _ => rfl⟩
      · exact .refl board
  | skip | skipInnermost | progressInnermost =>
      simp only [step]
      split <;> exact .refl board
  | skipTest id =>
      simp only [step]
      split <;> exact .refl board
  | skipRecord id => exact board.foreign_recordSkip id
  | progress | progressState | progressPerformed | progressTotal | progressShare
  | progressStatus => exact .refl board

namespace Scene

variable [Scalar α]

/-- Every act is one of these changes. -/
theorem change_of_act? {scene next : Scene α} {act : Act α}
    (acted : scene.act? act = some next) : Change scene act next := by
  cases act with
  | execute runId =>
      simp only [act?, Sequencer.beginRun] at acted
      cases taken : scene.sequencer.isTaken with
      | true =>
          simp only [taken] at acted
          cases acted
          exact .others _ (.refl _) rfl rfl fun _ => rfl
      | false =>
          simp only [taken] at acted
          cases acted
          refine .begins runId ?_ rfl rfl rfl
          simp only [Sequencer.isTaken, Bool.or_eq_false_iff] at taken
          exact taken.1
  | work run reply =>
      simp only [act?] at acted
      cases found : scene.workers[run]? with
      | none => simp [found] at acted
      | some worker =>
          simp only [found, Option.map_eq_some_iff] at acted
          obtain ⟨⟨board, after⟩, stepped, rfl⟩ := acted
          exact .works rfl found stepped rfl
  | invoke call =>
      simp only [act?] at acted
      split at acted
      · cases acted
        exact .others _ (.refl _) rfl rfl fun _ => rfl
      · cases acted
  | access position now =>
      simp only [act?] at acted
      cases found : scene.calls[position]? with
      | none => simp [found] at acted
      | some call =>
          have foreign := call.foreign_step scene.sequencer.totalWork now scene.board
          simp only [found] at acted
          split at acted <;> rename_i board _ stepped <;> rw [stepped] at foreign <;>
            cases acted <;> exact .others board foreign rfl rfl fun _ => rfl
  | simulate =>
      simp only [act?, Sequencer.beginSimulation] at acted
      cases taken : scene.sequencer.isTaken <;> simp only [taken] at acted <;> cases acted
      · exact .others _ (scene.board.foreign_simulation .simulating) rfl rfl fun _ => rfl
      · exact .others _ (.refl _) rfl rfl fun _ => rfl
  | conclude result =>
      simp only [act?] at acted
      split at acted
      · cases acted
        exact .others _ (scene.board.foreign_simulation _) rfl rfl fun _ => rfl
      · cases acted
  | subscribe | unsubscribe | collect =>
      cases acted
      exact .others _ (scene.board.foreign_bus _) rfl rfl fun _ => rfl

end Scene

end Scan
