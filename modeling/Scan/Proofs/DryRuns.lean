import Scan.Proofs.Costs
import Scan.Proofs.Cues

/-!
# What dry runs do

A dry run with an evaluator that is a function of the text heeds the cues of the units of work: it
fails with the first expression that has no value, it has one entry in its trace for each unit that
it counts, and it keeps a list of the writes. What an entry says depends only on the unit and on
what the dry run has found out before.
-/

namespace Scan

variable {α : Type}

/-- The surroundings of a dry run whose steps nobody listens to. -/
def DryRunner.quiet (evaluate : String → Except EvalError α) : DryRunner Id α where
  evaluate := evaluate
  reach := fun _ => ()

variable [Scalar α]

/-- What the dry run of a sequence comes to, before the report is made of it. -/
def Sequencer.dryRun (sequencer : Sequencer α) (profile : Profile α)
    (evaluate : String → Except EvalError α) : Except ScanError Unit × Estimate α :=
  sequencer.simulation (DryRunner.quiet evaluate) profile

/-- Whatever else the board shows, a dry run that is accepted reports what it comes to. -/
theorem Sequencer.simulate_eq {sequencer : Sequencer α} {board : Board}
    (free : (sequencer.withBoard board).isTaken = false) (profile : Profile α)
    (evaluate : String → Except EvalError α) (runId : String) :
    ((sequencer.withBoard board).simulate profile evaluate runId).1 =
      sequencer.simulationReport runId (sequencer.dryRun profile evaluate) := by
  simp only [simulate, beginSimulation, free]
  rfl

section Reports

variable {sequencer : Sequencer α} {runId : String}
variable {found : Except ScanError Unit × Estimate α}

omit [Scalar α] in
/-- A report is made of a dry run that succeeds. -/
theorem Sequencer.simulationReport_eq_ok {report : SimulationReport α} :
    sequencer.simulationReport runId found = .ok report ↔
      found.1 = .ok () ∧
        report = ⟨runId, sequencer.sequence.name, found.2.totalSeconds, sequencer.totalWork,
          found.2.steps.toList⟩ := by
  obtain ⟨_ | _, estimate⟩ := found
  · simp [simulationReport]
  · simp [simulationReport, eq_comm]

omit [Scalar α] in
/-- The error of a dry run that fails is passed on. -/
theorem Sequencer.simulationReport_eq_error {error : ScanError} :
    sequencer.simulationReport runId found = .error error ↔ found.1 = .error error := by
  obtain ⟨_ | _, estimate⟩ := found <;> simp [simulationReport]

end Reports

/-! ## Entries -/

/-- The value of a quantity, if it has one. -/
def Quantity.value? (evaluate : String → Except EvalError α) : Quantity α → Option α
  | .literal value => some value
  | .expression text => (evaluate text).toOption

namespace Condition

/-- Whether a wait for a desired value has neither an end in sight nor a limit. -/
def isUnbounded (condition : Condition α) (before : Estimate α) (desired : α) : Bool :=
  !condition.isMet before desired && condition.timeout.isNone

/-- What a wait for a desired value costs. -/
def cost (condition : Condition α) (before : Estimate α) (desired : α) : α :=
  if condition.isMet before desired then Scalar.zero
  else
    match condition.timeout with
    | some limit => limit.seconds
    | none => Scalar.zero

end Condition

namespace WorkUnit

variable (evaluate : String → Except EvalError α) (before : Estimate α)

/-- What the entry of a unit of work is called. -/
def heading : WorkUnit α → String
  | .value sweep iteration => sweep.label (sweep.value iteration)
  | .leaf (.wait description condition) =>
      if (condition.value.value? evaluate).any (condition.isUnbounded before) then
        description ++ " - unbounded"
      else description
  | .leaf command => command.description

/-- What a unit of work costs. -/
def cost : WorkUnit α → α
  | .value sweep iteration => sweep.completion.cost before sweep.channel (sweep.value iteration)
  | .leaf (.delay _ seconds _) => seconds
  | .leaf (.set _ assignment) =>
      ((assignment.value.value? evaluate).map
        (assignment.completion.cost before assignment.channel)).getD Scalar.zero
  | .leaf (.wait _ condition) =>
      ((condition.value.value? evaluate).map (condition.cost before)).getD Scalar.zero
  | .leaf _ => Scalar.zero

/-- The entry of a unit of work in the trace. -/
def entry (unit : WorkUnit α) : SimulationStep α :=
  ⟨unit.heading evaluate before, unit.cost evaluate before⟩

end WorkUnit

/-- What the dry run of one unit of work comes to: its expression has no value, or it adds its entry
to the trace and its writes to the list. -/
inductive WorkUnit.Simulates (evaluate : String → Except EvalError α) (unit : WorkUnit α)
    (before : Estimate α) : Except ScanError Unit × Estimate α → Prop where
  | refused {text : String} {error : EvalError} (valueless : evaluate text = .error error)
      (stops : Cue.heeded evaluate (unit.cues evaluate) = [.evaluate text]) :
      Simulates evaluate unit before (.error (.expression error), before)
  | logged {after : Estimate α} (sound : Cue.firstFault? evaluate (unit.cues evaluate) = none)
      (profile : after.profile = before.profile)
      (steps : after.steps = before.steps.push (unit.entry evaluate before))
      (total : after.totalSeconds = before.totalSeconds + unit.cost evaluate before)
      (writes : after.writes.toList =
        before.writes.toList ++ (unit.cues evaluate).filterMap Cue.write?) :
      Simulates evaluate unit before (.ok (), after)

namespace Estimate

variable (estimate : Estimate α) (channel readback : String) (value : α)

omit [Scalar α]

@[simp] theorem profile_assign :
    (estimate.assign channel readback value).profile = estimate.profile := by
  unfold assign
  split <;> rfl

@[simp] theorem steps_assign :
    (estimate.assign channel readback value).steps = estimate.steps := by
  unfold assign
  split <;> rfl

@[simp] theorem totalSeconds_assign :
    (estimate.assign channel readback value).totalSeconds = estimate.totalSeconds := by
  unfold assign
  split <;> rfl

@[simp] theorem writes_assign :
    (estimate.assign channel readback value).writes = estimate.writes.push (channel, value) := by
  unfold assign
  split <;> rfl

end Estimate

section Evaluation

variable {evaluate : String → Except EvalError α}

omit [Scalar α] in
/-- What the value of a quantity comes to in a dry run, and what becomes of its cues. -/
theorem Quantity.resolve_cases (quantity : Quantity α) (purpose : Purpose α)
    (before : Estimate α) :
    (∃ value, quantity.value? evaluate = some value ∧
      ((DryRunner.quiet evaluate).resolve quantity).run.run before = (.ok value, before) ∧
      Cue.firstFault? evaluate (quantity.cues evaluate purpose) = none ∧
      (quantity.cues evaluate purpose).filterMap Cue.write? =
        (purpose.cues value).filterMap Cue.write?) ∨
    ∃ text error, evaluate text = .error error ∧
      ((DryRunner.quiet evaluate).resolve quantity).run.run before =
        (.error (.expression error), before) ∧
      quantity.cues evaluate purpose = [.evaluate text] := by
  have silent : ∀ value, Cue.firstFault? evaluate (purpose.cues value) = none := by
    intro value
    cases purpose <;> rfl
  cases quantity with
  | literal value => exact .inl ⟨value, rfl, rfl, silent value, rfl⟩
  | expression text =>
      have told : ((DryRunner.quiet evaluate).resolve (.expression text)).run.run before =
          ((evaluate text).mapError .expression, before) := by
        rw [DryRunner.resolve, DryRun.Agrees.run_bind]
        simp only [DryRunner.quiet]
        cases evaluate text <;> rfl
      rw [told]
      cases known : evaluate text with
      | ok value =>
          refine .inl ⟨value, ?_, rfl, ?_, ?_⟩
          · rw [value?, known]
            rfl
          · rw [cues, known, Cue.firstFault?, List.findSome?_cons, Cue.fault?, known]
            exact silent value
          · rw [cues, known]
            rfl
      | error error =>
          refine .inr ⟨text, error, known, rfl, ?_⟩
          rw [cues, known]

/-- A wait adds one entry to the trace. -/
theorem Condition.estimateWait_eq (condition : Condition α) (label : String) (desired : α)
    (before : Estimate α) :
    ∃ values, condition.estimateWait label desired before =
      { before.log (if condition.isUnbounded before desired then label ++ " - unbounded" else label)
          (condition.cost before desired) with values := values } := by
  unfold estimateWait isUnbounded cost
  cases condition.isMet before desired with
  | true => exact ⟨before.values, rfl⟩
  | false => cases condition.timeout <;> exact ⟨_, rfl⟩

/-- The dry run of one unit of work. -/
theorem WorkUnit.simulates {unit : WorkUnit α}
    (plain : ∀ command, unit = .leaf command → command.isComposite = false)
    (before : Estimate α) :
    unit.Simulates evaluate before ((unit.simulate (.quiet evaluate)).run.run before) := by
  have quiet : (DryRunner.quiet evaluate).reach = fun _ => pure () := rfl
  -- neither a fault nor a write comes with the count at the end
  have counted : ∀ {cues : List (Cue α)}, Cue.firstFault? evaluate cues = none →
      Cue.firstFault? evaluate (cues ++ [Cue.count]) = none := by
    intro cues sound
    rw [Cue.firstFault?_append, sound]
    rfl
  have stopped : ∀ {text : String} {error : EvalError}, evaluate text = .error error →
      Cue.heeded evaluate ([Cue.evaluate text] ++ [Cue.count] : List (Cue α)) = [.evaluate text] := by
    intro text error valueless
    simp [Cue.heeded, Cue.fault?, valueless]
  cases unit with
  | value sweep iteration =>
      change Simulates _ _ _ (.ok (),
        (before.assign sweep.channel sweep.completion.readback (sweep.value iteration)).log
          (sweep.label (sweep.value iteration))
          (sweep.completion.cost before sweep.channel (sweep.value iteration)))
      apply Simulates.logged
      · rfl
      all_goals simp [Estimate.log, entry, heading, cost, cues, Cue.write?]
  | leaf command =>
      cases command with
      | loop | group => exact absurd (plain _ rfl).symm Bool.false_ne_true
      | delay description seconds duration =>
          rw [simulate, Command.simulate, Command.arrive_of_quiet quiet, pure_bind]
          exact .logged rfl rfl rfl rfl (List.append_nil _).symm
      | comment description text =>
          rw [simulate, Command.simulate, Command.arrive_of_quiet quiet, pure_bind]
          exact .logged rfl rfl rfl rfl (List.append_nil _).symm
      | set description assignment =>
          rw [simulate, Command.simulate, Command.arrive_of_quiet quiet, pure_bind,
            DryRun.Agrees.run_bind]
          rcases assignment.value.resolve_cases (.assign assignment) before with
            ⟨value, known, resolved, sound, writes⟩ | ⟨text, error, valueless, resolved, stops⟩
          · rw [resolved]
            change Simulates _ _ _ (.ok (),
              (before.assign assignment.channel assignment.completion.readback value).log
                description (assignment.completion.cost before assignment.channel value))
            apply Simulates.logged (counted sound)
            · simp [Estimate.log]
            · simp [Estimate.log, entry, heading, cost, known, Command.description]
            · simp [Estimate.log, cost, known]
            · simp [Estimate.log, cues, writes, Purpose.cues, Cue.write?]
          · rw [resolved]
            apply Simulates.refused valueless
            rw [cues, stops, stopped valueless]
      | wait description condition =>
          rw [simulate, Command.simulate, Command.arrive_of_quiet quiet, pure_bind,
            DryRun.Agrees.run_bind]
          rcases condition.value.resolve_cases (.await condition) before with
            ⟨desired, known, resolved, sound, writes⟩ | ⟨text, error, valueless, resolved, stops⟩
          · rw [resolved]
            change Simulates _ _ _ (.ok (), condition.estimateWait description desired before)
            obtain ⟨values, waited⟩ := condition.estimateWait_eq description desired before
            rw [waited]
            apply Simulates.logged (counted sound)
            · rfl
            · simp [Estimate.log, entry, heading, cost, known]
            · simp [Estimate.log, cost, known]
            · simp [Estimate.log, cues, writes, Purpose.cues, Cue.write?]
          · rw [resolved]
            apply Simulates.refused valueless
            rw [cues, stops, stopped valueless]

omit [Scalar α] in
theorem Quantity.countP_cues (quantity : Quantity α) (purpose : Purpose α) :
    (quantity.cues evaluate purpose).countP Cue.isCount = 0 := by
  have silent : ∀ value, (purpose.cues value).countP Cue.isCount = 0 := by
    intro value
    cases purpose <;> rfl
  cases quantity with
  | literal value => exact silent value
  | expression text =>
      rw [cues, List.countP_cons_of_neg Bool.false_ne_true]
      cases evaluate text with
      | ok value => exact silent value
      | error error => rfl

/-- A unit of work is counted once. -/
theorem WorkUnit.countP_cues (unit : WorkUnit α) :
    (unit.cues evaluate).countP Cue.isCount = 1 := by
  cases unit with
  | value sweep iteration => rfl
  | leaf command =>
      cases command with
      | set | wait => rw [cues, List.countP_append, Quantity.countP_cues]; rfl
      | delay | comment | loop | group => rfl

theorem WorkUnit.countP_flatMap_cues (units : List (WorkUnit α)) :
    (units.flatMap (cues evaluate)).countP Cue.isCount = units.length := by
  induction units with
  | nil => rfl
  | cons unit rest ih =>
      rw [List.flatMap_cons, List.countP_append, unit.countP_cues, ih, List.length_cons,
        Nat.add_comm]

/-! ## Units of work one after another -/

namespace Estimate

/-- The dry run of units of work one after another. -/
def through (before : Estimate α) (evaluate : String → Except EvalError α)
    (units : List (WorkUnit α)) : Except ScanError Unit × Estimate α :=
  (units.forM (·.simulate (.quiet evaluate)) : DryRun Id α Unit).run.run before

@[simp] theorem through_nil (before : Estimate α) :
    before.through evaluate [] = (.ok (), before) := rfl

theorem through_cons (before : Estimate α) (unit : WorkUnit α) (rest : List (WorkUnit α)) :
    before.through evaluate (unit :: rest) =
      match (unit.simulate (.quiet evaluate)).run.run before with
      | (.ok _, after) => after.through evaluate rest
      | (.error error, after) => (.error error, after) := by
  rw [through, List.forM_eq_forM, List.forM_cons, DryRun.Agrees.run_bind]
  generalize (unit.simulate (.quiet evaluate)).run.run before = result
  rcases result with ⟨_ | _, _⟩ <;> rfl

variable (evaluate) in
/-- The first of some units stops the dry run, or the others go on from what it has found out. -/
theorem through_cases {unit : WorkUnit α}
    (plain : ∀ command, unit = .leaf command → command.isComposite = false)
    (before : Estimate α) :
    (∃ text error, evaluate text = .error error ∧
      Cue.heeded evaluate (unit.cues evaluate) = [.evaluate text] ∧
      ∀ rest, before.through evaluate (unit :: rest) = (.error (.expression error), before)) ∨
    ∃ after, unit.Simulates evaluate before (.ok (), after) ∧
      ∀ rest, before.through evaluate (unit :: rest) = after.through evaluate rest := by
  have simulates : unit.Simulates evaluate before _ := WorkUnit.simulates plain before
  have next : ∀ rest, before.through evaluate (unit :: rest) = _ := before.through_cons unit
  generalize (unit.simulate (.quiet evaluate)).run.run before = result at simulates next
  cases simulates with
  | refused valueless stops => exact .inl ⟨_, _, valueless, stops, next⟩
  | logged sound profile steps total writes =>
      exact .inr ⟨_, .logged sound profile steps total writes, next⟩

omit [Scalar α] in
/-- What holds of units of work holds of the first one and of the others. -/
theorem plain_of_cons {unit : WorkUnit α} {rest : List (WorkUnit α)}
    (plain : ∀ command, .leaf command ∈ unit :: rest → command.isComposite = false) :
    (∀ command, unit = .leaf command → command.isComposite = false) ∧
      ∀ command, .leaf command ∈ rest → command.isComposite = false := by
  constructor
  · rintro command rfl
    exact plain command List.mem_cons_self
  · intro command member
    exact plain command (List.mem_cons_of_mem _ member)

/-- How the result of a dry run stands to the cues of the units that it went through. -/
structure Heeds (before : Estimate α) (evaluate : String → Except EvalError α)
    (cues : List (Cue α)) (result : Except ScanError Unit × Estimate α) : Prop where
  outcome : result.1 =
    match Cue.firstFault? evaluate cues with
    | some error => .error (.expression error)
    | none => .ok ()
  size : result.2.steps.size =
    before.steps.size + (Cue.heeded evaluate cues).countP Cue.isCount
  writes : result.2.writes.toList =
    before.writes.toList ++ (Cue.heeded evaluate cues).filterMap Cue.write?

variable (evaluate) in
/-- A dry run heeds the cues of the units that it goes through. -/
theorem heeds_through {units : List (WorkUnit α)}
    (plain : ∀ command, .leaf command ∈ units → command.isComposite = false)
    (before : Estimate α) :
    before.Heeds evaluate (units.flatMap (WorkUnit.cues evaluate))
      (before.through evaluate units) := by
  induction units generalizing before with
  | nil => exact ⟨rfl, rfl, (List.append_nil _).symm⟩
  | cons unit rest ih =>
      obtain ⟨own, others⟩ := plain_of_cons plain
      rw [List.flatMap_cons]
      rcases through_cases evaluate own before with
        ⟨text, error, valueless, stops, result⟩ | ⟨after, simulates, result⟩
      · have fault : Cue.firstFault? evaluate (unit.cues evaluate) = some error := by
          rw [← Cue.firstFault?_heeded, stops, Cue.firstFault?]
          simp [Cue.fault?, valueless]
        rw [result]
        refine ⟨?_, ?_, ?_⟩
        · rw [Cue.firstFault?_append, fault]
          rfl
        · rw [Cue.heeded_append_of_some fault, stops]
          rfl
        · rw [Cue.heeded_append_of_some fault, stops]
          exact (List.append_nil _).symm
      · have heeds := ih others after
        rw [result]
        cases simulates with
        | logged sound _ steps _ writes =>
            refine ⟨?_, ?_, ?_⟩
            · rw [Cue.firstFault?_append, sound]
              exact heeds.outcome
            · rw [heeds.size, steps, Array.size_push, Cue.heeded_append_of_none sound,
                List.countP_append, unit.countP_cues, Nat.add_assoc]
            · rw [heeds.writes, writes, Cue.heeded_append_of_none sound, List.filterMap_append,
                List.append_assoc]

/-- A dry run that succeeds has an entry for each unit. -/
theorem size_through {units : List (WorkUnit α)}
    (plain : ∀ command, .leaf command ∈ units → command.isComposite = false)
    {before : Estimate α} (succeeds : (before.through evaluate units).1 = .ok ()) :
    (before.through evaluate units).2.steps.size = before.steps.size + units.length := by
  have heeds := heeds_through evaluate plain before
  have sound : Cue.firstFault? evaluate (units.flatMap (WorkUnit.cues evaluate)) = none := by
    have outcome := heeds.outcome
    rw [succeeds] at outcome
    split at outcome
    · cases outcome
    · assumption
  rw [heeds.size, Cue.heeded_of_none sound, WorkUnit.countP_flatMap_cues]

end Estimate

end Evaluation

/-! ## Sequences -/

namespace Sequencer

variable (sequencer : Sequencer α) (profile : Profile α)
variable (evaluate : String → Except EvalError α)

/-- The dry run of a sequence goes through its expansion. -/
theorem dryRun_eq :
    sequencer.dryRun profile evaluate =
      (Estimate.start profile).through evaluate (Command.expandAll sequencer.steps) := by
  have quiet : (DryRunner.quiet evaluate).reach = fun _ => pure () := rfl
  rw [dryRun, simulation, Command.simulateAll_eq_forM quiet]
  rfl

/-- The dry run of a sequence heeds the cues of its expansion. -/
theorem dryRun_heeds :
    (Estimate.start profile).Heeds evaluate
      ((Command.expandAll sequencer.steps).flatMap (WorkUnit.cues evaluate))
      (sequencer.dryRun profile evaluate) := by
  rw [dryRun_eq]
  apply Estimate.heeds_through
  intro command member
  exact Command.isComposite_of_mem_expandAll _ member

variable {sequencer profile evaluate} in
/-- If a dry run succeeds then every expression on the way has a value. -/
theorem firstFault?_of_dryRun (succeeds : (sequencer.dryRun profile evaluate).1 = .ok ()) :
    Cue.firstFault? evaluate
      ((Command.expandAll sequencer.steps).flatMap (WorkUnit.cues evaluate)) = none := by
  have outcome := (sequencer.dryRun_heeds profile evaluate).outcome
  rw [succeeds] at outcome
  split at outcome
  · cases outcome
  · assumption

end Sequencer

end Scan
