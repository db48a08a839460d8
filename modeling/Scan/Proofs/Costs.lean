import Scan.Proofs.Flattening
import Scan.Sequencer

/-!
# The costs of dry runs

A dry run goes through the units of work of its steps one after another. It takes the labels of its
trace from the steps, and nothing that it finds out depends on them: dry runs of the same units
under other labels come to the same costs, or to the same error.
-/

namespace Scan

variable {α : Type} [Scalar α]

/-! ## Dry runs by units of work -/

/-- The dry run of a unit of work. -/
def WorkUnit.simulate (runner : DryRunner Id α) : WorkUnit α → DryRun Id α Unit
  | .leaf command => command.simulate runner 0
  | .value sweep iteration =>
      let value := sweep.value iteration
      modify fun estimate =>
        let seconds := sweep.completion.cost estimate sweep.channel value
        (estimate.assign sweep.channel sweep.completion.readback value).log (sweep.label value)
          seconds

omit [Scalar α] in
theorem forM_flatMap {m : Type → Type} [Monad m] [LawfulMonad m] {β γ : Type} (items : List β)
    (parts : β → List γ) (visit : γ → m Unit) :
    (items.flatMap parts).forM visit = items.forM fun item => (parts item).forM visit := by
  induction items with
  | nil => rfl
  | cons item rest ih =>
      simp only [List.flatMap_cons, List.forM_eq_forM, List.forM_append, List.forM_cons] at ih ⊢
      rw [ih]

namespace Command

variable {runner : DryRunner Id α}

omit [Scalar α] in
theorem arrive_of_quiet (quiet : runner.reach = fun _ => pure ()) (number : Nat) :
    runner.arrive number = (pure () : DryRun Id α Unit) := by
  rw [DryRunner.arrive, quiet]
  rfl

mutual

/-- The dry run of a command is that of its units of work, if nothing is told of its steps. -/
theorem simulate_eq_forM (quiet : runner.reach = fun _ => pure ()) : (command : Command α) →
    (number : Nat) → command.simulate runner number = command.expand.forM (·.simulate runner)
  | .loop _ sweep body _, number => by
      have unnumbered : runner.unnumbered = runner := by
        rw [DryRunner.unnumbered, ← quiet]
      rw [simulate, expand, Sweep.rounds, forM_flatMap, List.range_eq_range', arrive_of_quiet quiet,
        pure_bind, unnumbered]
      congr 1
      funext turn
      rw [simulateAll_eq_forM quiet body]
      rfl
  | .group _ children _, number => by
      rw [simulate, expand, simulateAll_eq_forM quiet children, arrive_of_quiet quiet, pure_bind]
  | .delay .., number | .set .., number | .wait .., number | .comment .., number => by
      simp [expand, WorkUnit.simulate, simulate, arrive_of_quiet quiet]

/-- The dry run of commands is that of their units of work, if nothing is told of the steps. -/
theorem simulateAll_eq_forM (quiet : runner.reach = fun _ => pure ()) :
    (commands : List (Command α)) → (number : Nat) →
      simulateAll runner number commands = (expandAll commands).forM (·.simulate runner)
  | [], number => rfl
  | command :: rest, number => by
      rw [simulateAll, simulate_eq_forM quiet command, simulateAll_eq_forM quiet rest, expandAll]
      simp only [List.forM_eq_forM, List.forM_append]

end

end Command

/-! ## Dry runs under other labels -/

/-- Estimates that differ only in the labels of their traces. -/
def Estimate.Matches (first second : Estimate α) : Prop :=
  ∃ steps, second = { first with steps := steps } ∧
    steps.map (·.seconds) = first.steps.map (·.seconds)

namespace Estimate.Matches

variable {first second : Estimate α}

omit [Scalar α] in
theorem refl (estimate : Estimate α) : estimate.Matches estimate :=
  ⟨estimate.steps, rfl, rfl⟩

theorem log (same : first.Matches second) (label other : String) (seconds : α) :
    (first.log label seconds).Matches (second.log other seconds) := by
  obtain ⟨steps, rfl, kept⟩ := same
  exact ⟨steps.push ⟨other, seconds⟩, rfl, by simp [Estimate.log, kept]⟩

/-- A write goes on the same from either of them. -/
theorem write (same : first.Matches second) (channel : String) (completion : Completion α)
    (value : α) (label other : String) :
    ((first.assign channel completion.readback value).log label
        (completion.cost first channel value)).Matches
      ((second.assign channel completion.readback value).log other
        (completion.cost second channel value)) := by
  have seconds : completion.cost second channel value = completion.cost first channel value := by
    obtain ⟨steps, rfl, -⟩ := same
    rfl
  rw [seconds]
  apply Matches.log
  obtain ⟨steps, rfl, kept⟩ := same
  unfold assign
  split <;> exact ⟨steps, rfl, kept⟩

/-- A wait goes on the same from either of them. -/
theorem wait (same : first.Matches second) (condition : Condition α) (label : String)
    (desired : α) :
    (condition.estimateWait label desired first).Matches
      (condition.estimateWait label desired second) := by
  have met : condition.isMet second desired = condition.isMet first desired := by
    obtain ⟨steps, rfl, -⟩ := same
    rfl
  have target : condition.target second desired = condition.target first desired := by
    obtain ⟨steps, rfl, -⟩ := same
    rfl
  have moved : ∀ {first second : Estimate α}, first.Matches second → ∀ value,
      (first.move condition.channel value).Matches (second.move condition.channel value) := by
    rintro first _ ⟨steps, rfl, kept⟩ value
    exact ⟨steps, rfl, kept⟩
  simp only [Condition.estimateWait, met, target]
  split
  · exact same.log ..
  · cases condition.timeout with
    | some limit => exact moved (same.log ..) _
    | none => exact moved (same.log ..) _

end Estimate.Matches

/-- Dry runs that come to the same, but for the labels of their traces. -/
def DryRun.Agrees {β : Type} (first second : DryRun Id α β) : Prop :=
  ∀ before other : Estimate α, before.Matches other →
    (first.run.run before).1 = (second.run.run other).1 ∧
      (first.run.run before).2.Matches (second.run.run other).2

namespace DryRun.Agrees

variable {β γ : Type} {first second : DryRun Id α β}

omit [Scalar α] in
theorem modify {change other : Estimate α → Estimate α}
    (same : ∀ before after, before.Matches after → (change before).Matches (other after)) :
    Agrees (modify change : DryRun Id α PUnit) (modify other) :=
  fun before after matching => ⟨rfl, same before after matching⟩

omit [Scalar α] in
theorem run_bind (run : DryRun Id α β) (next : β → DryRun Id α γ) (estimate : Estimate α) :
    (run >>= next).run.run estimate =
      match run.run.run estimate with
      | (.ok found, later) => (next found).run.run later
      | (.error error, later) => (.error error, later) := by
  simp only [ExceptT.run_bind, StateT.run_bind]
  generalize run.run.run estimate = outcome
  rcases outcome with ⟨_ | _, later⟩ <;> rfl

omit [Scalar α] in
/-- What follows dry runs that agree agrees if it does so from the same result on. -/
theorem bind {next other : β → DryRun Id α γ} (agrees : first.Agrees second)
    (goesOn : ∀ found, (next found).Agrees (other found)) :
    (first >>= next).Agrees (second >>= other) := by
  intro before after matching
  obtain ⟨result, kept⟩ := agrees before after matching
  rw [run_bind, run_bind]
  generalize first.run.run before = left at result kept
  generalize second.run.run after = right at result kept
  obtain ⟨found, later⟩ := left
  obtain ⟨_, behind⟩ := right
  cases result
  cases found with
  | ok value => exact goesOn value later behind kept
  | error error => exact ⟨rfl, kept⟩

omit [Scalar α] in
/-- Dry runs of items in order agree if those of every item do. -/
theorem forM {items : List γ} {visit other : γ → DryRun Id α Unit}
    (agrees : ∀ item ∈ items, (visit item).Agrees (other item)) :
    (items.forM visit).Agrees (items.forM other) := by
  induction items with
  | nil =>
      intro before after matching
      exact ⟨rfl, matching⟩
  | cons item rest ih =>
      apply bind (agrees item List.mem_cons_self)
      intro _
      apply ih
      intro item member
      exact agrees item (List.mem_cons_of_mem _ member)

omit [Scalar α] in
/-- The value of a quantity has nothing to do with the trace. -/
theorem resolve (runner : DryRunner Id α) (quantity : Quantity α) :
    (runner.resolve quantity).Agrees (runner.resolve quantity) := by
  intro before after matching
  cases quantity with
  | literal value => exact ⟨rfl, matching⟩
  | expression text =>
      have told : ∀ estimate : Estimate α,
          (runner.resolve (.expression text)).run.run estimate =
            match runner.evaluate text with
            | .ok value => (.ok value, estimate)
            | .error error => (.error (.expression error), estimate) := by
        intro estimate
        rw [DryRunner.resolve, run_bind]
        change (match runner.evaluate text with
          | .ok value => pure value
          | .error error => throw (.expression error) : DryRun Id α α).run.run estimate = _
        cases runner.evaluate text <;> rfl
      rw [told, told]
      cases runner.evaluate text <;> exact ⟨rfl, matching⟩

end DryRun.Agrees

/-! ## Dry runs of the units of work -/

section Units

variable {runner : DryRunner Id α}

/-- A step without nested steps finds out the same whatever the labels before it are. -/
theorem Command.agrees_of_leaf {command : Command α} (leaf : command.isComposite = false)
    (quiet : runner.reach = fun _ => pure ()) :
    (command.simulate runner 0).Agrees (command.simulate runner 0) := by
  cases command with
  | loop | group => cases leaf
  | delay | comment =>
      simp only [simulate, arrive_of_quiet quiet, pure_bind]
      exact .modify fun _ _ same => same.log ..
  | set description assignment =>
      simp only [simulate, arrive_of_quiet quiet, pure_bind]
      exact .bind (.resolve runner assignment.value) fun value =>
        .modify fun _ _ same => same.write ..
  | wait description condition =>
      simp only [simulate, arrive_of_quiet quiet, pure_bind]
      exact .bind (.resolve runner condition.value) fun desired =>
        .modify fun _ _ same => same.wait ..

/-- The dry run of a unit of work is that of the step that does it by itself. -/
theorem WorkUnit.agrees_command {unit : WorkUnit α}
    (plain : ∀ command, unit = .leaf command → command.isComposite = false)
    (quiet : runner.reach = fun _ => pure ()) :
    (unit.simulate runner).Agrees (unit.command.simulate runner 0) := by
  cases unit with
  | leaf command => exact Command.agrees_of_leaf (plain command rfl) quiet
  | value sweep iteration =>
      simp only [command, Command.simulate, Command.arrive_of_quiet quiet, pure_bind]
      exact .modify fun _ _ same => same.write ..

/-- The dry run of commands is that of the steps that do their units of work. -/
theorem Command.simulateAll_agrees (quiet : runner.reach = fun _ => pure ())
    (commands : List (Command α)) (number : Nat) :
    (simulateAll runner number commands).Agrees
      (simulateAll runner number ((expandAll commands).map WorkUnit.command)) := by
  rw [simulateAll_eq_forM quiet, simulateAll_eq_forM quiet,
    expandAll_map_command fun _ => isComposite_of_mem_expandAll commands]
  simp only [List.forM_eq_forM, List.forM_map]
  apply DryRun.Agrees.forM
  intro unit member
  apply WorkUnit.agrees_command _ quiet
  intro command same
  exact isComposite_of_mem_expandAll commands (same ▸ member)

end Units

/-! ## Reports of dry runs -/

/-- What a dry run reports without the labels: the costs of the entries of the trace, their total
and the total work. -/
def SimulationReport.costs (report : SimulationReport α) : List α × α × UInt64 :=
  (report.steps.map (·.seconds), report.totalSeconds, report.totalWork)

/-- Sequencers that do the same units of work find out the same in dry runs. -/
theorem Sequencer.costs_eq {first second : Sequencer α}
    (firstFree : first.isTaken = false) (secondFree : second.isTaken = false)
    (units : second.steps = (Command.expandAll first.steps).map WorkUnit.command)
    (work : second.totalWork = first.totalWork) (profile : Profile α)
    (evaluate : String → Except EvalError α) (runId : String) :
    (first.simulate profile evaluate runId).1.map SimulationReport.costs =
      (second.simulate profile evaluate runId).1.map SimulationReport.costs := by
  let runner : DryRunner Id α := { evaluate := evaluate, reach := fun _ => () }
  have quiet : runner.reach = fun _ => pure () := rfl
  obtain ⟨result, kept⟩ := Command.simulateAll_agrees quiet first.steps 0 (Estimate.start profile)
    (Estimate.start profile) (.refl _)
  simp only [simulate, beginSimulation, firstFree, secondFree, Bool.false_eq_true, if_false,
    simulation, withBoard, units]
  generalize (Command.simulateAll runner 0 first.steps).run.run (Estimate.start profile) = found
    at result kept ⊢
  generalize (Command.simulateAll runner 0
    ((Command.expandAll first.steps).map WorkUnit.command)).run.run (Estimate.start profile) = other
    at result kept ⊢
  obtain ⟨outcome, estimate⟩ := found
  obtain ⟨_, _⟩ := other
  obtain ⟨steps, rfl, costs⟩ := kept
  cases result
  cases outcome with
  | error error => rfl
  | ok =>
      have trace : steps.toList.map (·.seconds) = estimate.steps.toList.map (·.seconds) := by
        rw [← Array.toList_map, costs, Array.toList_map]
      simp [simulationReport, Except.map, SimulationReport.costs, work, trace]

end Scan
