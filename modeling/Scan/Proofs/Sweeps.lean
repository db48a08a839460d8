import Mathlib.Data.List.Iterate
import Mathlib.Data.Rat.Floor
import Mathlib.Data.Set.Card
import Scan.Proofs.Motion
import Scan.Proofs.WellFormed

/-!
# The values of a loop

In exact arithmetic a loop goes through just the values that can be reached from its start by whole
steps without going past its end, but for a slack of a billionth of a step. It does not leave out
the last of them, and there is none if the step leads away from the end.
-/

namespace Scan

/-- The numbers of whole steps that lead from the start of a range no farther than to its end, but
for a slack that absorbs rounding. -/
def stepsWithin (start stop step : Rat) : Set Nat :=
  {count | (count : Rat) ≤ (stop - start) / step + 1 / 10 ^ 9}

theorem mem_stepsWithin {start stop step : Rat} {count : Nat} :
    count ∈ stepsWithin start stop step ↔ (count : Rat) ≤ (stop - start) / step + 1 / 10 ^ 9 :=
  Iff.rfl

theorem iterationSlack_eq : (iterationSlack : Rat) = 1 / 10 ^ 9 := by
  change ((1 : Nat) : Rat) / ((1000000000 : Nat) : Rat) = 1 / 10 ^ 9
  norm_num

/-- In exact arithmetic every range has a number of values, and these are the steps within it. -/
theorem exists_valueCount? (start stop step : Rat) :
    ∃ count, valueCount? start stop step = some count ∧
      ∀ turn, turn < count ↔ turn ∈ stepsWithin start stop step := by
  have slack := iterationSlack_eq
  simp only [valueCount?, mem_stepsWithin, ← slack]
  change ∃ count, (if decide ((stop - start) / step < 0 - iterationSlack) = true then some 0
    else some (((stop - start) / step + iterationSlack).floor.toNat + 1)) = some count ∧ _
  split
  · rename_i away
    refine ⟨0, rfl, fun turn => iff_of_false (Nat.not_lt_zero turn) fun within => ?_⟩
    have short := of_decide_eq_true away
    have natural : (0 : Rat) ≤ turn := Nat.cast_nonneg turn
    linarith
  · rename_i toward
    refine ⟨_, rfl, fun turn => ?_⟩
    have reach : 0 ≤ (stop - start) / step + iterationSlack := by
      have long := not_lt.mp fun short => toward (decide_eq_true short)
      linarith
    have natural : 0 ≤ ((stop - start) / step + iterationSlack).floor := Rat.le_floor_iff.mpr reach
    rw [Nat.lt_succ_iff, Int.le_toNat natural, Rat.le_floor_iff, Int.cast_natCast]

/-- There are as many steps within a range as the range has values. -/
theorem stepsWithin_eq {start stop step : Rat} {count : Nat}
    (counted : valueCount? start stop step = some count) :
    stepsWithin start stop step = Finset.range count := by
  obtain ⟨_, recounted, within⟩ := exists_valueCount? start stop step
  cases counted.symm.trans recounted
  ext turn
  rw [← within, Finset.mem_coe, Finset.mem_range]

theorem finite_stepsWithin (start stop step : Rat) : (stepsWithin start stop step).Finite := by
  obtain ⟨count, counted, -⟩ := exists_valueCount? start stop step
  rw [stepsWithin_eq counted]
  exact Finset.finite_toSet _

theorem ncard_stepsWithin {start stop step : Rat} {count : Nat}
    (counted : valueCount? start stop step = some count) :
    (stepsWithin start stop step).ncard = count := by
  rw [stepsWithin_eq counted, Set.ncard_coe_finset, Finset.card_range]

/-- A range is gone through if the steps within it are not too many. -/
theorem iterationCount_eq (start stop step : Rat) :
    iterationCount start stop step =
      if (stepsWithin start stop step).ncard ≤ 1000000 then some (stepsWithin start stop step).ncard
      else none := by
  obtain ⟨count, counted, -⟩ := exists_valueCount? start stop step
  rw [ncard_stepsWithin counted]
  split
  · rename_i few
    exact iterationCount_eq_some.mpr ⟨counted, few⟩
  · rename_i many
    rw [Option.eq_none_iff_forall_ne_some]
    intro other recounted
    obtain ⟨same, few⟩ := iterationCount_eq_some.mp recounted
    cases counted.symm.trans same
    exact many few

namespace Sweep

variable {sweep : Sweep Rat}

/-- How far a value lies beyond the end of a loop, in the direction of its step. -/
def overshoot (sweep : Sweep Rat) (value : Rat) : Rat :=
  (value - sweep.stop) * Scalar.sign sweep.step

theorem value_eq (sweep : Sweep Rat) (turn : Nat) :
    sweep.value turn = sweep.start + turn * sweep.step := rfl

theorem overshoot_value (moves : sweep.step ≠ 0) (turn : Nat) :
    sweep.overshoot (sweep.value turn) =
      (turn - (sweep.stop - sweep.start) / sweep.step) * |sweep.step| := by
  have way : sweep.value turn - sweep.stop =
      (turn - (sweep.stop - sweep.start) / sweep.step) * sweep.step := by
    rw [value_eq, sub_mul, div_mul_cancel₀ _ moves]
    ring
  rw [overshoot, way, mul_assoc, Scalar.mul_sign]

/-- A value is reached by steps within the range just if it is not too far beyond the end. -/
theorem overshoot_le_iff (moves : sweep.step ≠ 0) (turn : Nat) :
    sweep.overshoot (sweep.value turn) ≤ 1 / 10 ^ 9 * |sweep.step| ↔
      turn ∈ stepsWithin sweep.start sweep.stop sweep.step := by
  rw [overshoot_value moves, mul_le_mul_iff_left₀ (abs_pos.mpr moves), sub_le_iff_le_add',
    mem_stepsWithin]

/-- Whether a loop goes through all that is within its range, and nothing else. -/
structure Covers (sweep : Sweep Rat) : Prop where
  iterations : sweep.iterations = (stepsWithin sweep.start sweep.stop sweep.step).ncard
  /-- Each value is one step from the one before. -/
  values : sweep.values = List.iterate (· + sweep.step) sweep.start sweep.iterations
  ascends : 0 < sweep.step → sweep.values.Pairwise (· < ·)
  descends : sweep.step < 0 → sweep.values.Pairwise (· > ·)
  distinct : sweep.values.Nodup
  /-- No value is beyond the end, but for the slack; the next one would be. -/
  within : ∀ value ∈ sweep.values, sweep.overshoot value ≤ 1 / 10 ^ 9 * |sweep.step|
  exhausted : 1 / 10 ^ 9 * |sweep.step| <
    sweep.overshoot (sweep.start + sweep.iterations * sweep.step)
  /-- There is no value just if the start is beyond the end. -/
  empty : sweep.iterations = 0 ↔ 1 / 10 ^ 9 * |sweep.step| < sweep.overshoot sweep.start

theorem value_succ (sweep : Sweep Rat) (turn : Nat) :
    sweep.value (turn + 1) = sweep.value turn + sweep.step := by
  rw [value_eq, value_eq, Nat.cast_succ, add_one_mul, add_assoc]

theorem value_eq_iterate (sweep : Sweep Rat) (turn : Nat) :
    sweep.value turn = (· + sweep.step)^[turn] sweep.start := by
  induction turn with
  | zero => simp [value_eq]
  | succ turn ih => rw [value_succ, ih, Function.iterate_succ_apply']

theorem values_eq_iterate (sweep : Sweep Rat) :
    sweep.values = List.iterate (· + sweep.step) sweep.start sweep.iterations := by
  rw [← List.range_map_iterate]
  exact List.map_congr_left fun turn _ => sweep.value_eq_iterate turn

theorem strictMono_value (ascends : 0 < sweep.step) : StrictMono sweep.value :=
  strictMono_nat_of_lt_succ fun turn => by
    rw [value_succ]
    exact lt_add_of_pos_right _ ascends

theorem strictAnti_value (descends : sweep.step < 0) : StrictAnti sweep.value :=
  strictAnti_nat_of_succ_lt fun turn => by
    rw [value_succ]
    exact add_lt_of_neg_right _ descends

theorem injective_value (moves : sweep.step ≠ 0) : Function.Injective sweep.value := by
  rcases lt_or_gt_of_ne moves with descends | ascends
  · exact (strictAnti_value descends).injective
  · exact (strictMono_value ascends).injective

/-- A loop that is accepted covers its range. -/
theorem covers_of_iterationCount (moves : sweep.step ≠ 0)
    (counted : iterationCount sweep.start sweep.stop sweep.step = some sweep.iterations) :
    sweep.Covers := by
  have valued := (iterationCount_eq_some.mp counted).1
  have reached : ∀ turn, sweep.overshoot (sweep.value turn) ≤ 1 / 10 ^ 9 * |sweep.step| ↔
      turn < sweep.iterations := by
    intro turn
    rw [overshoot_le_iff moves, stepsWithin_eq valued, Finset.mem_coe, Finset.mem_range]
  have first : sweep.value 0 = sweep.start := by simp [value_eq]
  exact {
    iterations := (ncard_stepsWithin valued).symm
    values := sweep.values_eq_iterate
    ascends := fun ascends => List.pairwise_lt_range.map _ fun _ _ => (strictMono_value ascends ·)
    descends := fun descends =>
      List.pairwise_lt_range.map _ fun _ _ => (strictAnti_value descends ·)
    distinct := List.nodup_range.map (injective_value moves)
    within := by
      intro value member
      obtain ⟨turn, early, rfl⟩ := List.mem_map.mp member
      exact (reached turn).mpr (List.mem_range.mp early)
    exhausted := by
      rw [← value_eq, ← not_le, reached]
      exact Nat.lt_irrefl _
    empty := by rw [← first, ← not_le, reached, Nat.not_lt, Nat.le_zero] }

end Sweep

/-! ## Loops -/

/-- Whether a descriptor has all that a loop needs, which is to go through a given range. -/
structure Descriptor.IsLoopOver (descriptor : Descriptor) (start stop step : Rat) : Prop where
  known : descriptor.HasOnly
    ["channel", "start", "end", "step", "wait", "readback", "tolerance", "timeout"]
  channel : descriptor.HasText "channel"
  start : descriptor.numeral? Rat "start" = some start
  stop : descriptor.numeral? Rat "end" = some stop
  step : descriptor.numeral? Rat "step" = some step
  completes : descriptor.Completes Rat

/-- Such a descriptor is read as a loop, or refused for the number of its values. -/
theorem Descriptor.IsLoopOver.sweepOf_eq {descriptor : Descriptor} {start stop step : Rat}
    (ranges : descriptor.IsLoopOver start stop step) (moves : step ≠ 0) :
    ∃ channel completion, Command.sweepOf descriptor =
      match iterationCount start stop step with
      | some iterations => .ok ⟨channel, start, stop, step, completion, iterations⟩
      | none => .error
          (.tooManyIterations (Scalar.text start) (Scalar.text stop) (Scalar.text step)) := by
  obtain ⟨channel, named⟩ := ranges.channel
  obtain ⟨completion, completed⟩ : ∃ completion : Completion Rat,
      Completion.ofDescriptor descriptor channel = .ok completion :=
    (Completion.exists_ofDescriptor_iff rfl).mpr ranges.completes
  have moving : Scalar.same step Scalar.zero = false := by
    rw [Bool.eq_false_iff]
    intro still
    obtain ⟨below, above⟩ := Bool.and_eq_true_iff.mp still
    exact moves (le_antisymm (of_decide_eq_true below) (of_decide_eq_true above))
  have known : descriptor.requireNames
      ["channel", "start", "end", "step", "wait", "readback", "tolerance", "timeout"] = .ok () :=
    Descriptor.requireNames_eq_ok.mpr ranges.known
  refine ⟨channel, completion, ?_⟩
  rw [Command.sweepOf, known, Descriptor.text_eq_ok.mpr named,
    Descriptor.number_eq_ok.mpr ranges.start, Descriptor.number_eq_ok.mpr ranges.stop,
    Descriptor.number_eq_ok.mpr ranges.step]
  simp only [bind, Except.bind, moving, Bool.false_eq_true, if_false, completed]
  cases iterationCount start stop step <;> rfl

/-- The values of a loop in exact arithmetic. The loop is refused just if more than a million whole
steps from its start are within its range, but for a slack of a billionth of a step. Else there is
one value for each of them: the values follow one another by the step, in its direction and without
a repetition; none is beyond the end by more than the slack, while the next one would be; and there
is none just if the start itself is that far beyond the end. -/
theorem loops_cover_their_range {start stop step : Rat} (moves : step ≠ 0) :
    (stepsWithin start stop step).Finite ∧
    iterationCount start stop step =
      (if (stepsWithin start stop step).ncard ≤ 1000000 then
        some (stepsWithin start stop step).ncard else none) ∧
    (∀ sweep : Sweep Rat, sweep.start = start → sweep.stop = stop → sweep.step = step →
      iterationCount start stop step = some sweep.iterations → sweep.Covers) ∧
    ∀ descriptor : Descriptor, descriptor.IsLoopOver start stop step →
      ((∃ first last stride, Command.sweepOf (α := Rat) descriptor =
          .error (.tooManyIterations first last stride)) ↔
        1000000 < (stepsWithin start stop step).ncard) ∧
      ((stepsWithin start stop step).ncard ≤ 1000000 → ∃ sweep : Sweep Rat,
        Command.sweepOf descriptor = .ok sweep ∧ sweep.start = start ∧ sweep.stop = stop ∧
          sweep.step = step ∧ sweep.Covers) := by
  have covers : ∀ sweep : Sweep Rat, sweep.start = start → sweep.stop = stop →
      sweep.step = step → iterationCount start stop step = some sweep.iterations →
      sweep.Covers := by
    rintro sweep rfl rfl rfl counted
    exact Sweep.covers_of_iterationCount moves counted
  refine ⟨finite_stepsWithin start stop step, iterationCount_eq start stop step, covers,
    fun descriptor ranges => ?_⟩
  obtain ⟨channel, completion, read⟩ := ranges.sweepOf_eq moves
  rw [read]
  have counted := iterationCount_eq start stop step
  by_cases few : (stepsWithin start stop step).ncard ≤ 1000000
  · rw [if_pos few] at counted
    simp only [counted]
    refine ⟨iff_of_false ?_ few.not_gt,
      fun _ => ⟨_, rfl, rfl, rfl, rfl, covers _ rfl rfl rfl counted⟩⟩
    rintro ⟨_, _, _, same⟩
    cases same
  · rw [if_neg few] at counted
    simp only [counted]
    exact ⟨iff_of_true ⟨_, _, _, rfl⟩ (not_le.mp few), fun less => absurd less few⟩

/-- A loop from ten down to nothing by steps of two and a half has five values. -/
theorem descending_loop_covers_its_range :
    ∃ sweep : Sweep Rat, Command.sweepOf (Descriptor.loopOver "a" 10 0 (-2.5) []) = .ok sweep ∧
      sweep.Covers ∧ sweep.values = [10, 15 / 2, 5, 5 / 2, 0] := by
  have ranges : (Descriptor.loopOver "a" 10 0 (-2.5) []).IsLoopOver 10 0 (-5 / 2) := {
    known := by simp [Descriptor.HasOnly, Descriptor.loopOver, Json.Members.names]
    channel := ⟨"a", rfl, by decide⟩
    start := by decide +kernel
    stop := by decide +kernel
    step := by decide +kernel
    completes := ⟨.inl (.inl rfl), .inl (.inl rfl), .inl (.inl rfl), .inl (.inl rfl)⟩ }
  have five : (stepsWithin 10 0 (-5 / 2)).ncard = 5 := ncard_stepsWithin (by decide +kernel)
  obtain ⟨-, -, -, loops⟩ := @loops_cover_their_range 10 0 (-5 / 2) (by norm_num)
  obtain ⟨sweep, read, start, stop, step, covers⟩ := (loops _ ranges).2 (five ▸ by norm_num)
  refine ⟨sweep, read, covers, ?_⟩
  rw [covers.values, covers.iterations, start, stop, step, five]
  norm_num [List.iterate]

end Scan
