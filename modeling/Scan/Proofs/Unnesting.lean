import Scan.Proofs.Costs
import Scan.Proofs.Verdict

/-!
# Unnesting

Nesting is only a way to write sequences down: a sequence and its flat form have the same score, so
that their runs cannot be told apart from outside and come to the same verdicts, and their dry runs
come to the same costs.
-/

namespace Scan

/-! ## The score of a flat sequence -/

section Scores

variable {α : Type} [Scalar α]

/-- A unit of work comes to the beats of the step that does it by itself. -/
theorem Beat.ofUnit_command (unit : WorkUnit α) : ofUnit (.leaf unit.command) = ofUnit unit := by
  cases unit <;> rfl

theorem Beat.ofUnits_map_command (units : List (WorkUnit α)) :
    ofUnits (units.map fun unit => .leaf unit.command) = ofUnits units := by
  induction units with
  | nil => rfl
  | cons unit rest ih => rw [List.map_cons, ofUnits_cons, ofUnits_cons, ofUnit_command, ih]

/-- The steps that do the units of work of some steps have their score. -/
theorem Score.ofSteps_command (steps : List (Command α)) :
    ofSteps ((Command.expandAll steps).map WorkUnit.command) = ofSteps steps := by
  rw [ofSteps, ofSteps, Command.expandAll_map_command fun _ =>
    Command.isComposite_of_mem_expandAll steps, Beat.ofUnits_map_command]

end Scores

/-- A sequence and its flat form cannot be told apart: their runs make the same calls and count the
same units of work up to any moment, they come to the same verdicts, and their dry runs come to the
same costs or to the same error. -/
theorem flat_sequence_is_equivalent {sequence : Sequence} {pollInterval : Duration}
    {sequencer : Sequencer Float}
    (accepted : Sequencer.ofSequence sequence pollInterval = .ok sequencer)
    (finite : ∀ sweep turn, .value sweep turn ∈ Command.expandAll sequencer.steps →
      (sweep.value turn).isFinite = true) :
    ∃ flat : Sequencer Float,
      Sequencer.ofSequence sequence.flatten pollInterval = .ok flat ∧
      (∀ command ∈ flat.steps, command.isComposite = false) ∧
      flat.totalWork = sequencer.totalWork ∧
      ∀ first second : Board, first.IsAtRest → second.IsAtRest → ∀ runId,
        (∀ trace, (sequencer.withBoard first).Sounds runId trace ↔
          (flat.withBoard second).Sounds runId trace) ∧
        (∀ trace verdict, (sequencer.withBoard first).Performs runId trace verdict ↔
          (flat.withBoard second).Performs runId trace verdict) ∧
        ∀ profile evaluate,
          ((sequencer.withBoard first).simulate profile evaluate runId).1.map
              SimulationReport.costs =
            ((flat.withBoard second).simulate profile evaluate runId).1.map
              SimulationReport.costs := by
  have writable : ∀ unit ∈ Command.expandAll sequencer.steps, unit.IsWritable := by
    intro unit member
    cases unit with
    | leaf => trivial
    | value sweep turn => exact finite sweep turn member
  obtain ⟨flat, flatAccepted, steps, work, pace⟩ := Sequencer.exists_flatten accepted writable
  refine ⟨flat, flatAccepted, ?_, work, fun first second firstRest secondRest runId => ⟨?_, ?_, ?_⟩⟩
  · rw [steps]
    intro command member
    obtain ⟨unit, own, rfl⟩ := List.mem_map.mp member
    cases unit with
    | leaf command => exact Command.isComposite_of_mem_expandAll _ own
    | value => rfl
  · intro trace
    rw [Sequencer.sounds_iff firstRest, Sequencer.sounds_iff secondRest]
    simp only [Sequencer.withBoard, steps, pace, Score.ofSteps_command]
  · intro trace verdict
    rw [Sequencer.performs_iff firstRest, Sequencer.performs_iff secondRest]
    simp only [Sequencer.withBoard, steps, work, pace, Score.ofSteps_command]
  · intro profile evaluate
    exact Sequencer.costs_eq ((sequencer.withBoard first).isTaken_of_isAtRest firstRest)
      ((flat.withBoard second).isTaken_of_isAtRest secondRest) steps work profile evaluate runId

/-- Plays the score of a sequence to its end and tests what is noticed, if the values of its loops
are finite. -/
def Score.rehearse (sequence : Sequence) (pollInterval : Duration)
    (replies : List (Option (Reply Float))) (test : List (Notice Float) → Bool) : Bool :=
  match Sequencer.ofSequence (α := Float) sequence pollInterval with
  | .ok sequencer =>
      (Command.expandAll sequencer.steps).all (fun
        | .leaf _ => true
        | .value sweep turn => (sweep.value turn).isFinite) &&
      match (Score.ofSteps sequencer.steps).play sequencer.pollInterval replies with
      | some (trace, .closed none) => test trace
      | _ => false
  | .error _ => false

theorem Score.exists_of_rehearse {sequence : Sequence} {pollInterval : Duration}
    {replies : List (Option (Reply Float))} {test : List (Notice Float) → Bool}
    (passed : rehearse sequence pollInterval replies test = true) :
    ∃ (sequencer : Sequencer Float) (trace : List (Notice Float)),
      Sequencer.ofSequence sequence pollInterval = .ok sequencer ∧
      (∀ sweep turn, .value sweep turn ∈ Command.expandAll sequencer.steps →
        (sweep.value turn).isFinite = true) ∧
      (ofSteps sequencer.steps).Plays sequencer.pollInterval trace (.closed none) ∧
      test trace = true := by
  unfold rehearse at passed
  split at passed
  · rename_i sequencer accepted
    obtain ⟨finite, passed⟩ := Bool.and_eq_true_iff.mp passed
    split at passed
    · rename_i trace played
      refine ⟨sequencer, trace, accepted, ?_, Score.Plays.begin.append_play played, passed⟩
      intro sweep turn member
      exact List.all_eq_true.mp finite _ member
    · cases passed
  · cases passed

/-- A loop over two values, each of which is written, confirmed and noted, within a group. -/
theorem loop_is_equivalent :
    ∃ (sequencer flat : Sequencer Float) (trace : List (Notice Float)) (verdict : Verdict),
      Sequencer.ofSequence ⟨none, [.group [.loopOver "x" 0 1 1 [.comment "note"]]]⟩ ⟨2000000⟩ =
        .ok sequencer ∧
      Sequencer.ofSequence (Sequence.flatten ⟨none, [.group [.loopOver "x" 0 1 1
        [.comment "note"]]]⟩) ⟨2000000⟩ = .ok flat ∧
      sequencer.Performs "run" trace verdict ∧ flat.Performs "run" trace verdict ∧
      verdict.state = .finished ∧ verdict.performed = 4 := by
  let confirmed (value : Float) : List (Option (Reply Float)) :=
    [some (.wrote (.ok ())), some (.told 0), some (.told 0), some (.found (.ok value)), none, none]
  have rehearsed : Score.rehearse ⟨none, [.group [.loopOver "x" 0 1 1 [.comment "note"]]]⟩ ⟨2000000⟩
      ([some (Reply.told 0)] ++ confirmed 0 ++ confirmed 1 ++ [some (Reply.told 0)])
      (fun trace => trace.countP Notice.isCount == 4) = true := by
    decide +kernel
  obtain ⟨sequencer, trace, accepted, finite, plays, counted⟩ := Score.exists_of_rehearse rehearsed
  obtain ⟨flat, flatAccepted, -, -, same⟩ := flat_sequence_is_equivalent accepted finite
  have fresh : ∀ {sequence} {made : Sequencer Float},
      Sequencer.ofSequence sequence ⟨2000000⟩ = .ok made → made.withBoard {} = made := by
    intro sequence made accepted
    rw [(Sequencer.ofSequence_eq_ok accepted).2.2]
    rfl
  have performs : (sequencer.withBoard {}).Performs "run" trace _ :=
    (Sequencer.performs_iff Board.isAtRest_default).mpr ⟨none, plays, rfl⟩
  have flatPerforms :=
    ((same {} {} Board.isAtRest_default Board.isAtRest_default "run").2.1 _ _).mp performs
  rw [fresh accepted] at performs
  rw [fresh flatAccepted] at flatPerforms
  refine ⟨sequencer, flat, trace, _, accepted, flatAccepted, performs, flatPerforms, rfl, ?_⟩
  rw [Verdict.of, eq_of_beq counted]
  rfl

end Scan
