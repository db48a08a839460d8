import Mathlib.Algebra.GroupWithZero.Nat
import Scan.Sequencer

/-!
# Expansions

The expansion of a command lists its units of work in the order in which a run does them: groups
are replaced by their steps, and loops by a value and a pass through the body for every iteration.
The work that a command is compiled with is the length of its expansion, so a sequence that is
accepted counts exactly as many units as it expands to.
-/

namespace Scan

variable {α : Type}

/-- The units of a loop from one of its iterations on, when a pass through the body has the given
units. -/
def Sweep.rounds (sweep : Sweep α) (body : List (WorkUnit α)) (iteration : Nat) :
    List (WorkUnit α) :=
  (List.range' iteration (sweep.iterations - iteration)).flatMap fun turn =>
    .value sweep turn :: body

namespace Sweep

theorem rounds_of_lt (sweep : Sweep α) (body : List (WorkUnit α)) {iteration : Nat}
    (more : iteration < sweep.iterations) :
    sweep.rounds body iteration =
      .value sweep iteration :: body ++ sweep.rounds body (iteration + 1) := by
  have split : sweep.iterations - iteration = sweep.iterations - (iteration + 1) + 1 := by omega
  rw [rounds, rounds, split, List.range'_succ, List.flatMap_cons]

theorem rounds_of_le (sweep : Sweep α) (body : List (WorkUnit α)) {iteration : Nat}
    (ended : sweep.iterations ≤ iteration) : sweep.rounds body iteration = [] := by
  have none : sweep.iterations - iteration = 0 := by omega
  simp [rounds, none]

theorem length_rounds (sweep : Sweep α) (body : List (WorkUnit α)) (iteration : Nat) :
    (sweep.rounds body iteration).length =
      (sweep.iterations - iteration) * (body.length + 1) := by
  simp [rounds, List.length_flatMap, List.map_const']

/-- A unit of a loop is one of its values or a unit of its body. -/
theorem mem_rounds {sweep : Sweep α} {body : List (WorkUnit α)} {unit : WorkUnit α} :
    unit ∈ sweep.rounds body 0 ↔
      ∃ turn < sweep.iterations, unit = .value sweep turn ∨ unit ∈ body := by
  simp [rounds, List.mem_flatMap]

end Sweep

namespace Command

mutual

/-- The units of work of a command. -/
def expand : Command α → List (WorkUnit α)
  | .loop _ sweep body _ => sweep.rounds (expandAll body) 0
  | .group _ children _ => expandAll children
  | .delay description seconds duration => [.leaf (.delay description seconds duration)]
  | .set description assignment => [.leaf (.set description assignment)]
  | .wait description condition => [.leaf (.wait description condition)]
  | .comment description text => [.leaf (.comment description text)]

/-- The units of work of commands one after another. -/
def expandAll : List (Command α) → List (WorkUnit α)
  | [] => []
  | command :: rest => expand command ++ expandAll rest

end

theorem expand_leaf {command : Command α} (leaf : command.isComposite = false) :
    command.expand = [.leaf command] := by
  cases command <;> simp_all [isComposite, expand]

theorem expandAll_eq_flatMap (commands : List (Command α)) :
    expandAll commands = commands.flatMap expand := by
  induction commands with
  | nil => rfl
  | cons command rest ih => simp [expandAll, ih]

end Command

/-! ## The work of accepted sequences -/

namespace Work

/-- A sum that fits is the exact sum of all the words. -/
theorem toNat_sum? {counts : List UInt64} {total : UInt64} (fits : sum? counts = some total) :
    total.toNat = (counts.map UInt64.toNat).sum := by
  have general : ∀ (counts : List UInt64) (start total : UInt64),
      counts.foldlM add? start = some total →
        total.toNat = start.toNat + (counts.map UInt64.toNat).sum := by
    intro counts
    induction counts with
    | nil =>
        intro start total fits
        cases fits
        simp
    | cons count rest ih =>
        intro start total fits
        rw [List.foldlM_cons, Option.bind_eq_bind, Option.bind_eq_some_iff] at fits
        obtain ⟨sum, added, fits⟩ := fits
        rw [ih sum total fits, toNat_add? added, List.map_cons, List.sum_cons, Nat.add_assoc]
  simpa using general counts 0 total fits

end Work

section Compilation

variable [Scalar α]

omit [Scalar α] in
/-- What a sequence of two computations returns, the second one does on what the first one found. -/
theorem bind_eq_ok {ε β γ : Type} {first : Except ε β} {next : β → Except ε γ} {result : γ} :
    (first >>= next) = .ok result ↔ ∃ found, first = .ok found ∧ next found = .ok result := by
  cases first <;> simp [bind, Except.bind]

theorem iterationCount_le {start stop step : α} {count : Nat}
    (counted : iterationCount start stop step = some count) : count ≤ maxIterations := by
  simp only [iterationCount] at counted
  split at counted
  · cases counted
  · split at counted
    · cases counted
      exact Nat.zero_le _
    · split at counted
      · cases counted
      · split at counted
        · cases counted
        · rename_i reach _ small
          cases counted
          simp only [maxIterations] at small ⊢
          omega

namespace Command

/-- A command whose work is the length of its expansion. -/
def IsAccounted (command : Command α) : Prop :=
  command.workUnits.toNat = command.expand.length

omit [Scalar α] in
theorem IsAccounted.of_leaf {command : Command α} (leaf : command.isComposite = false) :
    command.IsAccounted := by
  cases command <;> simp_all [IsAccounted, isComposite, expand, workUnits]

omit [Scalar α] in
/-- Accounted commands have as much work together as their expansion is long. -/
theorem sum_workUnits {commands : List (Command α)}
    (accounted : ∀ command ∈ commands, command.IsAccounted) :
    ((commands.map workUnits).map UInt64.toNat).sum = (expandAll commands).length := by
  rw [List.map_map, expandAll_eq_flatMap, List.length_flatMap]
  exact congrArg List.sum (List.map_congr_left fun command member => accounted command member)

omit [Scalar α] in
/-- The total work of accounted commands is the length of their expansion. -/
theorem toNat_totalWork? {commands : List (Command α)} {total : UInt64}
    (accounted : ∀ command ∈ commands, command.IsAccounted)
    (fits : totalWork? commands = some total) : total.toNat = (expandAll commands).length := by
  rw [Work.toNat_sum? fits, sum_workUnits accounted]

theorem isComposite_of_delayOf {descriptor : Descriptor} {command : Command α}
    (read : delayOf descriptor = .ok command) : command.isComposite = false := by
  simp only [delayOf, bind_eq_ok, pure, Except.pure] at read
  obtain ⟨_, _, _, _, _, _, read⟩ := read
  split at read
  · cases read
  · obtain ⟨_, _, made⟩ := bind_eq_ok.mp read
    cases made
    rfl

theorem isComposite_of_setOf {descriptor : Descriptor} {command : Command α}
    (read : setOf descriptor = .ok command) : command.isComposite = false := by
  simp only [setOf, bind_eq_ok, pure, Except.pure] at read
  obtain ⟨_, _, _, _, _, _, _, _, _, _, made⟩ := read
  cases made
  rfl

theorem isComposite_of_waitOf {descriptor : Descriptor} {command : Command α}
    (read : waitOf descriptor = .ok command) : command.isComposite = false := by
  simp only [waitOf, bind_eq_ok, pure, Except.pure] at read
  obtain ⟨_, _, _, _, _, _, _, _, _, _, _, _, _, _, made⟩ := read
  cases made
  rfl

omit [Scalar α] in
theorem isComposite_of_commentOf {descriptor : Descriptor} {command : Command α}
    (read : commentOf descriptor = .ok command) : command.isComposite = false := by
  simp only [commentOf, bind_eq_ok, pure, Except.pure] at read
  obtain ⟨_, _, _, _, _, _, made⟩ := read
  cases made
  rfl

/-- What is read of a range that is accepted. -/
theorem sweepOf_eq_ok {descriptor : Descriptor} {sweep : Sweep α}
    (read : sweepOf descriptor = .ok sweep) :
    descriptor.requireNames
        ["channel", "start", "end", "step", "wait", "readback", "tolerance", "timeout"] = .ok () ∧
      descriptor.text "channel" = .ok sweep.channel ∧
      Completion.ofDescriptor descriptor sweep.channel = .ok sweep.completion ∧
      iterationCount sweep.start sweep.stop sweep.step = some sweep.iterations := by
  simp only [sweepOf, bind_eq_ok, pure, Except.pure] at read
  obtain ⟨_, names, channel, channelRead, start, _, stop, _, step, _, read⟩ := read
  split at read
  · cases read
  · obtain ⟨completion, completionRead, read⟩ := bind_eq_ok.mp read
    split at read
    · rename_i counted
      cases read
      exact ⟨names, channelRead, completionRead, counted⟩
    · cases read

/-- A loop that is accepted is made of its range and its nested steps, and its work is exact. -/
theorem loopOf_eq_ok {descriptor : Descriptor} {sweep : Sweep α} {body : List (Command α)}
    {command : Command α} (bounded : sweep.iterations ≤ maxIterations)
    (made : loopOf descriptor sweep body = .ok command) :
    ∃ description work perPass, command = .loop description sweep body work ∧
      totalWork? body = some perPass ∧
      work.toNat = (perPass.toNat + 1) * sweep.iterations := by
  simp only [loopOf] at made
  split at made
  · rename_i work counted
    cases made
    simp only [Option.bind_eq_bind, Option.bind_eq_some_iff] at counted
    obtain ⟨perPass, summed, perValue, added, multiplied⟩ := counted
    refine ⟨_, work, perPass, rfl, summed, ?_⟩
    have small : sweep.iterations < 2 ^ 64 := by
      simp only [maxIterations] at bounded
      omega
    rw [Work.toNat_mul? multiplied, Work.toNat_add? added, UInt64.toNat_ofNat',
      Nat.mod_eq_of_lt small]
    rfl
  · cases made

omit [Scalar α] in
/-- A group that is accepted is made of its nested steps, and its work is exact. -/
theorem groupOf_eq_ok {descriptor : Descriptor} {children : List (Command α)}
    {command : Command α} (made : groupOf descriptor children = .ok command) :
    ∃ description work, command = .group description children work ∧
      totalWork? children = some work := by
  simp only [groupOf] at made
  split at made
  · rename_i work summed
    cases made
    exact ⟨_, work, rfl, summed⟩
  · cases made

/-- A result under the kind of a descriptor is a result. -/
theorem under_eq_ok {β : Type} {kind : String} {result : Except Defect β} {found : β} :
    Defect.under kind result = .ok found ↔ result = .ok found := by
  cases result with
  | error _ => constructor <;> intro equal <;> cases equal
  | ok _ => constructor <;> intro equal <;> cases equal <;> rfl

/-- What a descriptor that compiles is: a step without nested steps, a loop or a group. -/
theorem compile_eq_ok {descriptor : Descriptor} {command : Command α}
    (compiled : compile descriptor = .ok command) :
    (descriptor.kind ≠ "loop" ∧ descriptor.kind ≠ "group" ∧ command.isComposite = false) ∨
      (descriptor.kind = "loop" ∧ ∃ sweep body, sweepOf descriptor = .ok sweep ∧
        compileAll descriptor.body = .ok body ∧ loopOf descriptor sweep body = .ok command) ∨
      (descriptor.kind = "group" ∧ ∃ children, compileAll descriptor.body = .ok children ∧
        groupOf descriptor children = .ok command) := by
  obtain ⟨kind, label, params, body⟩ := descriptor
  rw [compile] at compiled
  simp only [beq_iff_eq] at compiled
  split at compiled
  · rename_i same
    subst same
    exact .inl ⟨by simp, by simp, isComposite_of_delayOf (under_eq_ok.mp compiled)⟩
  split at compiled
  · rename_i same
    subst same
    exact .inl ⟨by simp, by simp, isComposite_of_setOf (under_eq_ok.mp compiled)⟩
  split at compiled
  · rename_i same
    subst same
    exact .inl ⟨by simp, by simp, isComposite_of_waitOf (under_eq_ok.mp compiled)⟩
  split at compiled
  · rename_i same
    subst same
    exact .inl ⟨by simp, by simp, isComposite_of_commentOf (under_eq_ok.mp compiled)⟩
  split at compiled
  · rename_i same
    obtain ⟨sweep, read, compiled⟩ := bind_eq_ok.mp compiled
    obtain ⟨commands, nested, made⟩ := bind_eq_ok.mp compiled
    exact .inr (.inl ⟨same, sweep, commands, under_eq_ok.mp read, nested, under_eq_ok.mp made⟩)
  split at compiled
  · rename_i same
    obtain ⟨_, _, compiled⟩ := bind_eq_ok.mp compiled
    obtain ⟨commands, nested, made⟩ := bind_eq_ok.mp compiled
    exact .inr (.inr ⟨same, commands, nested, under_eq_ok.mp made⟩)
  · cases compiled

/-- What a descriptor that is neither a loop nor a group is compiled as. -/
theorem compile_leaf_eq_ok {descriptor : Descriptor} {command : Command α}
    (noLoop : descriptor.kind ≠ "loop") (noGroup : descriptor.kind ≠ "group")
    (compiled : compile descriptor = .ok command) :
    delayOf descriptor = .ok command ∨ setOf descriptor = .ok command ∨
      waitOf descriptor = .ok command ∨ commentOf descriptor = .ok command := by
  obtain ⟨kind, label, params, body⟩ := descriptor
  rw [compile] at compiled
  simp only [beq_iff_eq, if_neg noLoop, if_neg noGroup] at compiled
  split at compiled
  · exact .inl (under_eq_ok.mp compiled)
  split at compiled
  · exact .inr (.inl (under_eq_ok.mp compiled))
  split at compiled
  · exact .inr (.inr (.inl (under_eq_ok.mp compiled)))
  split at compiled
  · exact .inr (.inr (.inr (under_eq_ok.mp compiled)))
  · cases compiled

mutual

/-- A command that was compiled is accounted. -/
theorem isAccounted_of_compile : (descriptor : Descriptor) → {command : Command α} →
    compile descriptor = .ok command → command.IsAccounted
  | ⟨kind, label, params, body⟩, command, compiled => by
      rcases compile_eq_ok compiled with
        ⟨-, -, leaf⟩ | ⟨-, sweep, nested, read, compiledBody, made⟩ |
          ⟨-, nested, compiledBody, made⟩
      · exact .of_leaf leaf
      · obtain ⟨-, -, -, counted⟩ := sweepOf_eq_ok read
        obtain ⟨_, work, perPass, rfl, summed, exact⟩ :=
          loopOf_eq_ok (iterationCount_le counted) made
        have length := toNat_totalWork? (isAccounted_of_compileAll body compiledBody) summed
        rw [IsAccounted, workUnits, expand, Sweep.length_rounds, exact, length, Nat.sub_zero,
          Nat.mul_comm]
      · obtain ⟨_, work, rfl, summed⟩ := groupOf_eq_ok made
        rw [IsAccounted, workUnits, expand]
        exact toNat_totalWork? (isAccounted_of_compileAll body compiledBody) summed

/-- Commands that were compiled are accounted. -/
theorem isAccounted_of_compileAll : (descriptors : List Descriptor) →
    {commands : List (Command α)} → compileAll descriptors = .ok commands →
      ∀ command ∈ commands, command.IsAccounted
  | [], commands, compiled => by
      rw [compileAll] at compiled
      cases compiled
      simp
  | descriptor :: rest, commands, compiled => by
      rw [compileAll] at compiled
      obtain ⟨command, compiledFirst, compiled⟩ := bind_eq_ok.mp compiled
      obtain ⟨others, compiledRest, made⟩ := bind_eq_ok.mp compiled
      cases made
      intro found member
      rcases List.mem_cons.mp member with rfl | member
      · exact isAccounted_of_compile descriptor compiledFirst
      · exact isAccounted_of_compileAll rest compiledRest found member

end

section Units

variable {P : WorkUnit α → Prop}

mutual

/-- What holds of every step without nested steps that is compiled and of every value of a loop
holds of the units of every command that is compiled. -/
theorem forall_expand_of_compile
    (leaf : ∀ (descriptor : Descriptor) (command : Command α), descriptor.kind ≠ "loop" →
      descriptor.kind ≠ "group" → compile descriptor = .ok command → P (.leaf command))
    (value : ∀ sweep iteration, P (.value sweep iteration)) :
    (descriptor : Descriptor) → {command : Command α} → compile descriptor = .ok command →
      ∀ unit ∈ command.expand, P unit
  | ⟨kind, label, params, body⟩, command, compiled => by
      intro unit member
      rcases compile_eq_ok compiled with
        ⟨noLoop, noGroup, composite⟩ | ⟨-, sweep, nested, read, compiledBody, made⟩ |
          ⟨-, nested, compiledBody, made⟩
      · rw [expand_leaf composite] at member
        cases List.mem_singleton.mp member
        exact leaf _ command noLoop noGroup compiled
      · obtain ⟨-, -, -, counted⟩ := sweepOf_eq_ok read
        obtain ⟨_, _, _, rfl, -⟩ := loopOf_eq_ok (iterationCount_le counted) made
        obtain ⟨turn, -, rfl | member⟩ := Sweep.mem_rounds.mp member
        · exact value sweep turn
        · exact forall_expandAll_of_compileAll leaf value body compiledBody unit member
      · obtain ⟨_, _, rfl, -⟩ := groupOf_eq_ok made
        exact forall_expandAll_of_compileAll leaf value body compiledBody unit member

/-- The same of the units of commands one after another. -/
theorem forall_expandAll_of_compileAll
    (leaf : ∀ (descriptor : Descriptor) (command : Command α), descriptor.kind ≠ "loop" →
      descriptor.kind ≠ "group" → compile descriptor = .ok command → P (.leaf command))
    (value : ∀ sweep iteration, P (.value sweep iteration)) :
    (descriptors : List Descriptor) → {commands : List (Command α)} →
      compileAll descriptors = .ok commands → ∀ unit ∈ expandAll commands, P unit
  | [], commands, compiled => by
      rw [compileAll] at compiled
      cases compiled
      exact nofun
  | descriptor :: rest, commands, compiled => by
      rw [compileAll] at compiled
      obtain ⟨command, compiledFirst, compiled⟩ := bind_eq_ok.mp compiled
      obtain ⟨others, compiledRest, made⟩ := bind_eq_ok.mp compiled
      cases made
      intro unit member
      rcases List.mem_append.mp member with member | member
      · exact forall_expand_of_compile leaf value descriptor compiledFirst unit member
      · exact forall_expandAll_of_compileAll leaf value rest compiledRest unit member

end

end Units

end Command

/-- An accepted sequence is compiled, and its total work is the sum of that of its steps. -/
theorem Sequencer.ofSequence_eq_ok {sequence : Sequence} {pollInterval : Duration}
    {sequencer : Sequencer α}
    (accepted : Sequencer.ofSequence sequence pollInterval = .ok sequencer) :
    Command.compileAll sequence.steps = .ok sequencer.steps ∧
      Command.totalWork? sequencer.steps = some sequencer.totalWork ∧
      sequencer = ⟨sequence, sequencer.steps, sequencer.totalWork, pollInterval, {}⟩ := by
  simp only [Sequencer.ofSequence] at accepted
  obtain ⟨steps, compiled, accepted⟩ := bind_eq_ok.mp accepted
  split at accepted
  · rename_i totalWork summed
    cases accepted
    exact ⟨compiled, summed, rfl⟩
  · cases accepted

/-- An accepted sequence has not been run yet, so nothing is on its board. -/
theorem Sequencer.board_eq_of_ofSequence {sequence : Sequence} {pollInterval : Duration}
    {sequencer : Sequencer α}
    (accepted : Sequencer.ofSequence sequence pollInterval = .ok sequencer) :
    sequencer.board = {} := by
  rw [(ofSequence_eq_ok accepted).2.2]

/-- The total work of an accepted sequence is the length of its expansion. -/
theorem Sequencer.toNat_totalWork {sequence : Sequence} {pollInterval : Duration}
    {sequencer : Sequencer α}
    (accepted : Sequencer.ofSequence sequence pollInterval = .ok sequencer) :
    sequencer.totalWork.toNat = (Command.expandAll sequencer.steps).length := by
  obtain ⟨compiled, summed, -⟩ := ofSequence_eq_ok accepted
  exact Command.toNat_totalWork? (Command.isAccounted_of_compileAll sequence.steps compiled) summed

end Compilation

end Scan
