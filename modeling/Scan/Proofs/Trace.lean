import Mathlib.Algebra.Order.Field.Basic
import Mathlib.Algebra.Order.Ring.Rat
import Scan.Proofs.DryRuns
import Scan.Proofs.Run

/-!
# The trace of a dry run

A dry run that succeeds has one entry in its trace for each unit of work, in the order of the
expansion, and its total is the sum of their costs. With exact numbers no cost is negative.
-/

namespace Scan

variable {α : Type} [Scalar α]

/-- What the entries of a trace cost together, added up one after another. -/
def SimulationStep.total (steps : List (SimulationStep α)) : α :=
  steps.foldl (fun total step => total + step.seconds) Scalar.zero

theorem SimulationStep.total_concat (steps : List (SimulationStep α)) (step : SimulationStep α) :
    total (steps ++ [step]) = total steps + step.seconds := by
  rw [total, total, List.foldl_append]
  rfl

/-! ## Entries in order -/

namespace Estimate

variable {evaluate : String → Except EvalError α} {units : List (WorkUnit α)}

variable (evaluate) in
/-- The trace only grows. -/
theorem steps_isPrefix_through
    (plain : ∀ command, .leaf command ∈ units → command.isComposite = false)
    (before : Estimate α) :
    before.steps.toList <+: (before.through evaluate units).2.steps.toList := by
  induction units generalizing before with
  | nil => exact List.prefix_rfl
  | cons unit rest ih =>
      obtain ⟨own, others⟩ := plain_of_cons plain
      rcases through_cases evaluate own before with
        ⟨_, _, _, _, result⟩ | ⟨after, simulates, result⟩
      · simp only [result, List.prefix_rfl]
      · rw [result]
        cases simulates with
        | logged _ _ steps =>
            apply List.IsPrefix.trans _ (ih others after)
            rw [steps, Array.toList_push]
            exact List.prefix_append _ _

/-- The total of a dry run is what the entries of its trace cost together. -/
theorem totalSeconds_through
    (plain : ∀ command, .leaf command ∈ units → command.isComposite = false)
    {before : Estimate α} (total : before.totalSeconds = SimulationStep.total before.steps.toList) :
    (before.through evaluate units).2.totalSeconds =
      SimulationStep.total (before.through evaluate units).2.steps.toList := by
  induction units generalizing before with
  | nil => exact total
  | cons unit rest ih =>
      obtain ⟨own, others⟩ := plain_of_cons plain
      rcases through_cases evaluate own before with
        ⟨_, _, _, _, result⟩ | ⟨after, simulates, result⟩
      · rw [result, total]
      · rw [result]
        cases simulates with
        | logged _ _ steps logged =>
            apply ih others
            rw [logged, steps, Array.toList_push, SimulationStep.total_concat, total]
            rfl

/-- The entry of a unit of work stands at its place and follows from what was found out before. -/
theorem entry_through
    (plain : ∀ command, .leaf command ∈ units → command.isComposite = false)
    {before : Estimate α} (succeeds : (before.through evaluate units).1 = .ok ())
    {index : Nat} {unit : WorkUnit α} (found : units[index]? = some unit) :
    ∃ halfway, before.through evaluate (units.take index) = (.ok (), halfway) ∧
      (before.through evaluate units).2.steps.toList[before.steps.size + index]? =
        some (unit.entry evaluate halfway) := by
  induction units generalizing before index with
  | nil => cases found
  | cons first rest ih =>
      obtain ⟨own, others⟩ := plain_of_cons plain
      rcases through_cases evaluate own before with
        ⟨_, _, _, _, result⟩ | ⟨after, simulates, result⟩
      · rw [result] at succeeds
        cases succeeds
      · rw [result] at succeeds ⊢
        cases simulates with
        | logged _ _ steps =>
            cases index with
            | zero =>
                cases found
                refine ⟨before, rfl, ?_⟩
                obtain ⟨more, whole⟩ := steps_isPrefix_through evaluate others after
                rw [steps, Array.toList_push] at whole
                rw [← whole]
                simp
            | succ index =>
                obtain ⟨halfway, through, entry⟩ := ih others succeeds found
                refine ⟨halfway, ?_, ?_⟩
                · rw [List.take_succ_cons, result, through]
                · rw [steps, Array.size_push] at entry
                  rw [← entry]
                  congr 1
                  omega

end Estimate

/-! ## Exact costs -/

/-- A unit of work that does not take a negative time by itself. -/
def WorkUnit.IsForward : WorkUnit α → Prop
  | .leaf (.delay _ seconds _) => Scalar.lt seconds Scalar.zero = false
  | _ => True

namespace Command

/-- The time of a delay that is compiled is not negative. -/
theorem isForward_of_compile {descriptor : Descriptor} {command : Command α}
    (noLoop : descriptor.kind ≠ "loop") (noGroup : descriptor.kind ≠ "group")
    (compiled : compile descriptor = .ok command) : (WorkUnit.leaf command).IsForward := by
  rcases compile_leaf_eq_ok noLoop noGroup compiled with read | read | read | read
  · simp only [delayOf, bind_eq_ok, pure, Except.pure] at read
    obtain ⟨_, _, _, _, seconds, _, read⟩ := read
    split at read
    · cases read
    · rename_i forward
      obtain ⟨_, _, made⟩ := bind_eq_ok.mp read
      cases made
      exact Bool.eq_false_of_not_eq_true forward
  · simp only [setOf, bind_eq_ok, pure, Except.pure] at read
    obtain ⟨_, _, _, _, _, _, _, _, _, _, made⟩ := read
    cases made
    trivial
  · simp only [waitOf, bind_eq_ok, pure, Except.pure] at read
    obtain ⟨_, _, _, _, _, _, _, _, _, _, _, _, _, _, made⟩ := read
    cases made
    trivial
  · simp only [commentOf, bind_eq_ok, pure, Except.pure] at read
    obtain ⟨_, _, _, _, _, _, made⟩ := read
    cases made
    trivial

end Command

section Exact

/-- A length of time is not negative. -/
theorem Duration.seconds_nonneg (duration : Duration) : (0 : Rat) ≤ duration.seconds := by
  apply add_nonneg
  · exact Nat.cast_nonneg _
  · exact div_nonneg (Nat.cast_nonneg _) (Nat.cast_nonneg _)

variable (before : Estimate Rat)

/-- A channel does not take a negative time to move. -/
theorem Estimate.travelTime_nonneg (channel : String) (value : Rat) :
    0 ≤ before.travelTime channel value := by
  unfold travelTime
  split
  · rename_i old rate _ known
    have positive : 0 < rate := by
      have faster := (Option.filter_eq_some_iff.mp known).2
      exact of_decide_eq_true faster
    apply div_nonneg _ positive.le
    change 0 ≤ if value - old < 0 then -(value - old) else value - old
    split
    · rename_i negative
      exact (neg_pos.mpr negative).le
    · rename_i negative
      exact not_lt.mp negative
  · exact le_rfl

theorem Completion.cost_nonneg (completion : Completion Rat) (channel : String) (value : Rat) :
    0 ≤ completion.cost before channel value := by
  unfold cost
  split
  · exact before.travelTime_nonneg channel value
  · exact le_rfl

theorem Condition.cost_nonneg (condition : Condition Rat) (desired : Rat) :
    0 ≤ condition.cost before desired := by
  unfold cost
  split
  · exact le_rfl
  · cases condition.timeout with
    | some limit => exact limit.seconds_nonneg
    | none => exact le_rfl

/-- A unit of work that goes forward does not have a negative cost. -/
theorem WorkUnit.cost_nonneg {unit : WorkUnit Rat} (forward : unit.IsForward)
    (evaluate : String → Except EvalError Rat) : 0 ≤ unit.cost evaluate before := by
  have absent : ∀ (found : Option Rat) (price : Rat → Rat), (∀ value, 0 ≤ price value) →
      0 ≤ (found.map price).getD Scalar.zero := by
    intro found price nonneg
    cases found with
    | none => exact le_rfl
    | some value => exact nonneg value
  cases unit with
  | value sweep iteration => exact sweep.completion.cost_nonneg before sweep.channel _
  | leaf command =>
      cases command with
      | delay description seconds duration => exact not_lt.mp (of_decide_eq_false forward)
      | set description assignment =>
          exact absent _ _ (assignment.completion.cost_nonneg before assignment.channel)
      | wait description condition => exact absent _ _ (condition.cost_nonneg before)
      | loop | comment | group => exact le_rfl

end Exact

/-! ## Reports -/

section Reports

variable {sequence : Sequence} {pollInterval : Duration} {board : Board} {runId : String}

/-- The trace of a dry run lists the units of the expansion in order, and its total is the sum of
their costs. -/
theorem Sequencer.trace_of_simulate {sequencer : Sequencer α} {profile : Profile α}
    {evaluate : String → Except EvalError α} {report : SimulationReport α}
    (free : (sequencer.withBoard board).isTaken = false)
    (simulated : ((sequencer.withBoard board).simulate profile evaluate runId).1 = .ok report) :
    report.steps.length = (Command.expandAll sequencer.steps).length ∧
      (∀ index unit, (Command.expandAll sequencer.steps)[index]? = some unit →
        ∃ before, (Estimate.start profile).through evaluate
            ((Command.expandAll sequencer.steps).take index) = (.ok (), before) ∧
          report.steps[index]? = some (unit.entry evaluate before)) ∧
      report.totalSeconds = SimulationStep.total report.steps := by
  have plain : ∀ command, .leaf command ∈ Command.expandAll sequencer.steps →
      command.isComposite = false := fun _ => Command.isComposite_of_mem_expandAll _
  rw [simulate_eq free, simulationReport_eq_ok, dryRun_eq] at simulated
  obtain ⟨succeeds, rfl⟩ := simulated
  refine ⟨?_, ?_, Estimate.totalSeconds_through plain rfl⟩
  · have size := Estimate.size_through plain succeeds
    rwa [show (Estimate.start profile).steps.size = 0 from rfl, Nat.zero_add] at size
  · intro index unit found
    obtain ⟨before, through, entry⟩ := Estimate.entry_through plain succeeds found
    rw [show (Estimate.start profile).steps.size = 0 from rfl, Nat.zero_add] at entry
    exact ⟨before, through, entry⟩

/-- With exact numbers no entry of an accepted sequence has a negative cost. -/
theorem Sequencer.seconds_nonneg {sequencer : Sequencer Rat} {profile : Profile Rat}
    {evaluate : String → Except EvalError Rat} {report : SimulationReport Rat}
    (accepted : ofSequence sequence pollInterval = .ok sequencer)
    (free : (sequencer.withBoard board).isTaken = false)
    (simulated : ((sequencer.withBoard board).simulate profile evaluate runId).1 = .ok report) :
    ∀ step ∈ report.steps, 0 ≤ step.seconds := by
  intro step member
  obtain ⟨length, entries, -⟩ := trace_of_simulate free simulated
  obtain ⟨index, found⟩ := List.mem_iff_getElem?.mp member
  have bound : index < (Command.expandAll sequencer.steps).length :=
    length ▸ (List.getElem?_eq_some_iff.mp found).1
  obtain ⟨before, -, entry⟩ := entries index _ (List.getElem?_eq_getElem bound)
  cases found.symm.trans entry
  apply WorkUnit.cost_nonneg
  obtain ⟨compiled, -⟩ := ofSequence_eq_ok accepted
  exact Command.forall_expandAll_of_compileAll (fun _ _ => Command.isForward_of_compile)
    (fun _ _ => trivial) sequence.steps compiled _ (List.getElem_mem bound)

end Reports

end Scan
