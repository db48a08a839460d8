import Scan.Proofs.Flattening
import Scan.Proofs.WellFormed

/-!
# What is refused

A descriptor compiles if and only if it is well formed, since what compiles is as much work as the
descriptor comes to. The error of one that does not names a node that is not sound, and a sequence
is refused with the error of the first of its steps that does not compile.
-/

namespace Scan

variable {α : Type} [Scalar α]

/-! ## The work of a tree -/

namespace Work

theorem exists_ofNat?_iff {count : Nat} : (∃ word, ofNat? count = some word) ↔ count < 2 ^ 64 := by
  rw [ofNat?, Nat.pow_eq]
  split
  · rename_i small
    simp [small]
  · rename_i large
    simp [large]

/-- Words have a sum if and only if their exact sum is a word. -/
theorem exists_sum?_iff {counts : List UInt64} :
    (∃ total, sum? counts = some total) ↔ (counts.map UInt64.toNat).sum < 2 ^ 64 := by
  constructor
  · rintro ⟨total, summed⟩
    rw [← toNat_sum? summed]
    exact total.toNat_lt
  · exact exists_sum?

end Work

namespace Descriptor

/-- What holds of a tree as soon as it holds of its nested steps holds of every tree. -/
theorem forall_of_body {P : Descriptor → Prop}
    (ascends : ∀ descriptor : Descriptor, (∀ nested ∈ descriptor.body, P nested) → P descriptor) :
    (descriptor : Descriptor) → P descriptor
  | ⟨kind, label, params, body⟩ =>
      ascends _ fun nested (_ : nested ∈ body) => forall_of_body ascends nested

theorem unitsAll_eq_sum {descriptors : List Descriptor} :
    unitsAll α descriptors = (descriptors.map (units α)).sum := by
  induction descriptors with
  | nil => rw [unitsAll]; rfl
  | cons descriptor rest ih => rw [unitsAll, ih, List.map_cons, List.sum_cons]

theorem units_eq (descriptor : Descriptor) : descriptor.units α =
    if descriptor.kind = "loop" then
      (unitsAll α descriptor.body + 1) * descriptor.valueCount α
    else if descriptor.kind = "group" then unitsAll α descriptor.body
    else 1 := by
  obtain ⟨kind, label, params, body⟩ := descriptor
  rw [units]

end Descriptor

namespace Command

variable {descriptor : Descriptor} {sweep : Sweep α} {commands body : List (Command α)}

/-- The iterations of a range that is accepted are the values of the loop. -/
theorem valueCount_of_sweepOf (read : sweepOf descriptor = .ok sweep) :
    descriptor.valueCount α = sweep.iterations := by
  simp only [sweepOf, bind_eq_ok] at read
  obtain ⟨_, _, _, _, start, starts, stop, stops, step, steps, read⟩ := read
  split at read
  · cases read
  · obtain ⟨completion, _, read⟩ := bind_eq_ok.mp read
    split at read
    · rename_i counted
      cases read
      simp [Descriptor.valueCount, Descriptor.number_eq_ok.mp starts,
        Descriptor.number_eq_ok.mp stops, Descriptor.number_eq_ok.mp steps,
        (iterationCount_eq_some.mp counted).1]
    · cases read

/-- What descriptors compile to is, one by one, what holds of the descriptors, if each is. -/
theorem map_eq_of_compileAll {β : Type} {ofCommand : Command α → β} {ofDescriptor : Descriptor → β}
    {descriptors : List Descriptor}
    (each : ∀ descriptor ∈ descriptors, ∀ command : Command α,
      compile descriptor = .ok command → ofCommand command = ofDescriptor descriptor)
    (compiled : compileAll descriptors = .ok commands) :
    commands.map ofCommand = descriptors.map ofDescriptor := by
  have pairs := forall₂_of_compileAll compiled
  clear compiled
  induction pairs with
  | nil => rfl
  | cons own _ ih =>
      rw [List.map_cons, List.map_cons, each _ List.mem_cons_self _ own,
        ih fun other member => each other (.tail _ member)]

/-- What descriptors compile to is as much work as the descriptors come to, if each is. -/
theorem sum_workUnits_of_compileAll {descriptors : List Descriptor}
    (each : ∀ descriptor ∈ descriptors, ∀ command : Command α,
      compile descriptor = .ok command → command.workUnits.toNat = descriptor.units α)
    (compiled : compileAll descriptors = .ok commands) :
    ((commands.map workUnits).map UInt64.toNat).sum = Descriptor.unitsAll α descriptors := by
  rw [Descriptor.unitsAll_eq_sum, List.map_map]
  exact congrArg List.sum (map_eq_of_compileAll each compiled)

/-- What a descriptor compiles to is as much work as the descriptor comes to. -/
theorem toNat_workUnits_of_compile (descriptor : Descriptor) :
    ∀ command : Command α, compile descriptor = .ok command →
      command.workUnits.toNat = descriptor.units α := by
  induction descriptor using Descriptor.forall_of_body with | _ descriptor nested
  intro command compiled
  rcases compile_eq_ok compiled with
    ⟨noLoop, noGroup, leaf⟩ | ⟨kind, sweep, body, read, compiledBody, made⟩ |
      ⟨kind, children, compiledBody, made⟩
  · rw [Descriptor.units_eq, if_neg noLoop, if_neg noGroup]
    have accounted := IsAccounted.of_leaf leaf
    rw [IsAccounted, expand_leaf leaf] at accounted
    exact accounted
  · obtain ⟨-, -, -, counted⟩ := sweepOf_eq_ok read
    obtain ⟨_, work, perPass, rfl, summed, exact⟩ := loopOf_eq_ok (iterationCount_le counted) made
    rw [Descriptor.units_eq, if_pos kind, valueCount_of_sweepOf read,
      ← sum_workUnits_of_compileAll nested compiledBody, ← Work.toNat_sum? summed]
    exact exact
  · obtain ⟨_, work, rfl, summed⟩ := groupOf_eq_ok made
    have noLoop : descriptor.kind ≠ "loop" := by
      rw [kind]
      decide
    rw [Descriptor.units_eq, if_neg noLoop, if_pos kind,
      ← sum_workUnits_of_compileAll nested compiledBody,
      ← Work.toNat_sum? summed]
    rfl

theorem unitsAll_of_compileAll {descriptors : List Descriptor}
    (compiled : compileAll descriptors = .ok commands) :
    ((commands.map workUnits).map UInt64.toNat).sum = Descriptor.unitsAll α descriptors :=
  sum_workUnits_of_compileAll (fun descriptor _ => toNat_workUnits_of_compile descriptor) compiled

/-- A group of compiled steps is accepted if and only if their work fits a word. -/
theorem exists_groupOf_iff (compiled : compileAll descriptor.body = .ok commands) :
    (∃ command, groupOf descriptor commands = .ok command) ↔
      Descriptor.unitsAll α descriptor.body < 2 ^ 64 := by
  rw [← unitsAll_of_compileAll compiled, ← Work.exists_sum?_iff, groupOf, ← totalWork?]
  cases totalWork? commands <;> simp

/-- A loop over compiled steps is accepted if and only if its work fits a word. -/
theorem exists_loopOf_iff (read : sweepOf descriptor = .ok sweep)
    (compiled : compileAll descriptor.body = .ok commands) :
    (∃ command, loopOf descriptor sweep commands = .ok command) ↔
      Descriptor.unitsAll α descriptor.body + 1 < 2 ^ 64 ∧
        (Descriptor.unitsAll α descriptor.body + 1) * descriptor.valueCount α < 2 ^ 64 := by
  obtain ⟨-, -, -, counted⟩ := sweepOf_eq_ok read
  have iterations : (UInt64.ofNat sweep.iterations).toNat = sweep.iterations := by
    have few := iterationCount_le counted
    rw [UInt64.toNat_ofNat', Nat.mod_eq_of_lt]
    simp only [maxIterations] at few
    omega
  rw [← unitsAll_of_compileAll compiled, valueCount_of_sweepOf read, loopOf]
  constructor
  · rintro ⟨command, made⟩
    split at made
    · rename_i work counted
      simp only [Option.bind_eq_bind, Option.bind_eq_some_iff] at counted
      obtain ⟨perPass, summed, perValue, added, multiplied⟩ := counted
      rw [← Work.toNat_sum? summed]
      have perValueExact : perValue.toNat = perPass.toNat + 1 := Work.toNat_add? added
      have workExact := Work.toNat_mul? multiplied
      rw [iterations, perValueExact] at workExact
      exact ⟨perValueExact ▸ perValue.toNat_lt, workExact ▸ work.toNat_lt⟩
    · cases made
  · rintro ⟨perValueFits, workFits⟩
    obtain ⟨perPass, summed⟩ := Work.exists_sum?_iff.mpr (Nat.lt_of_succ_lt perValueFits)
    rw [← Work.toNat_sum? summed] at perValueFits workFits
    obtain ⟨perValue, added⟩ : ∃ perValue, Work.add? perPass 1 = some perValue :=
      Work.exists_ofNat?_iff.mpr perValueFits
    have perValueExact : perValue.toNat = perPass.toNat + 1 := Work.toNat_add? added
    obtain ⟨work, multiplied⟩ :
        ∃ work, Work.mul? perValue (UInt64.ofNat sweep.iterations) = some work :=
      Work.exists_ofNat?_iff.mpr (by rwa [iterations, perValueExact])
    have total : totalWork? commands = some perPass := summed
    simp [total, added, multiplied]

end Command

/-! ## What is refused -/

theorem bind_eq_error {ε β γ : Type} {first : Except ε β} {next : β → Except ε γ} {error : ε} :
    (first >>= next) = .error error ↔
      first = .error error ∨ ∃ found, first = .ok found ∧ next found = .error error := by
  cases first <;> simp [bind, Except.bind]

namespace Descriptor

variable {descriptor : Descriptor}

/-- Whether an error is one that says that a descriptor is of no kind, or else what is wrong with it
as one of its kind. -/
def IsBlamed (error : ScanError) (descriptor : Descriptor) : Prop :=
  (descriptor.kind ∉ kinds ∧ error = .compilation descriptor.kind) ∨
    (descriptor.kind ∈ kinds ∧ ∃ defect : Defect, error = defect.error descriptor.kind)

theorem IsSound.kind_mem (sound : descriptor.IsSound α) : descriptor.kind ∈ kinds := by
  cases sound <;> simp [kinds, *]

/-- A node is sound if and only if it passes the checks of its kind. -/
theorem isSound_iff (zero : Scalar.exact (Scalar.zero : α) = some 0) : descriptor.IsSound α ↔
    (descriptor.kind = "delay" ∧
        ∃ command : Command α, Command.delayOf descriptor = .ok command) ∨
      (descriptor.kind = "set" ∧
        ∃ command : Command α, Command.setOf descriptor = .ok command) ∨
      (descriptor.kind = "wait" ∧
        ∃ command : Command α, Command.waitOf descriptor = .ok command) ∨
      (descriptor.kind = "comment" ∧
        ∃ command : Command α, Command.commentOf descriptor = .ok command) ∨
      (descriptor.kind = "loop" ∧
        (∃ sweep : Sweep α, Command.sweepOf descriptor = .ok sweep) ∧
        unitsAll α descriptor.body + 1 < 2 ^ 64 ∧
        (unitsAll α descriptor.body + 1) * descriptor.valueCount α < 2 ^ 64) ∨
      (descriptor.kind = "group" ∧ descriptor.HasOnly [] ∧
        unitsAll α descriptor.body < 2 ^ 64) := by
  rw [Command.exists_delayOf_iff zero, Command.exists_setOf_iff zero,
    Command.exists_waitOf_iff zero, Command.exists_commentOf_iff, Command.exists_sweepOf_iff zero]
  constructor
  · intro sound
    cases sound with
    | delay kind known flat seconds => exact .inl ⟨kind, known, flat, seconds⟩
    | set kind known flat channel value completes =>
        exact .inr (.inl ⟨kind, known, flat, channel, value, completes⟩)
    | wait kind known flat channel comparison value tolerance timeout =>
        exact .inr (.inr (.inl
          ⟨kind, known, flat, channel, comparison, value, tolerance, timeout⟩))
    | comment kind known flat text => exact .inr (.inr (.inr (.inl ⟨kind, known, flat, text⟩)))
    | loop kind known channel range completes perValue total =>
        exact .inr (.inr (.inr (.inr (.inl
          ⟨kind, ⟨known, channel, range, completes⟩, perValue, total⟩))))
    | group kind known total => exact .inr (.inr (.inr (.inr (.inr ⟨kind, known, total⟩))))
  · rintro (⟨kind, known, flat, seconds⟩ | ⟨kind, known, flat, channel, value, completes⟩ |
      ⟨kind, known, flat, channel, comparison, value, tolerance, timeout⟩ |
      ⟨kind, known, flat, text⟩ |
      ⟨kind, ⟨known, channel, range, completes⟩, perValue, total⟩ | ⟨kind, known, total⟩)
    · exact .delay kind known flat seconds
    · exact .set kind known flat channel value completes
    · exact .wait kind known flat channel comparison value tolerance timeout
    · exact .comment kind known flat text
    · exact .loop kind known channel range completes perValue total
    · exact .group kind known total

section Checks

variable (zero : Scalar.exact (Scalar.zero : α) = some 0)
include zero

theorem isSound_iff_of_delay (kind : descriptor.kind = "delay") : descriptor.IsSound α ↔
    ∃ command : Command α, Command.delayOf descriptor = .ok command := by
  rw [isSound_iff zero]
  simp [kind]

theorem isSound_iff_of_set (kind : descriptor.kind = "set") : descriptor.IsSound α ↔
    ∃ command : Command α, Command.setOf descriptor = .ok command := by
  rw [isSound_iff zero]
  simp [kind]

theorem isSound_iff_of_wait (kind : descriptor.kind = "wait") : descriptor.IsSound α ↔
    ∃ command : Command α, Command.waitOf descriptor = .ok command := by
  rw [isSound_iff zero]
  simp [kind]

theorem isSound_iff_of_comment (kind : descriptor.kind = "comment") : descriptor.IsSound α ↔
    ∃ command : Command α, Command.commentOf descriptor = .ok command := by
  rw [isSound_iff zero]
  simp [kind]

theorem isSound_iff_of_loop (kind : descriptor.kind = "loop") : descriptor.IsSound α ↔
    (∃ sweep : Sweep α, Command.sweepOf descriptor = .ok sweep) ∧
      unitsAll α descriptor.body + 1 < 2 ^ 64 ∧
      (unitsAll α descriptor.body + 1) * descriptor.valueCount α < 2 ^ 64 := by
  rw [isSound_iff zero]
  simp [kind]

theorem isSound_iff_of_group (kind : descriptor.kind = "group") : descriptor.IsSound α ↔
    descriptor.HasOnly [] ∧ unitsAll α descriptor.body < 2 ^ 64 := by
  rw [isSound_iff zero]
  simp [kind]

end Checks

/-- A descriptor is to blame for the failure of a check that it passes if it is sound. -/
theorem isBlamed_of_under {β : Type} {result : Except Defect β} {error : ScanError}
    (known : descriptor.kind ∈ kinds)
    (needed : descriptor.IsSound α → ∃ found, result = .ok found)
    (failed : Defect.under descriptor.kind result = .error error) :
    ¬descriptor.IsSound α ∧ descriptor.IsBlamed error := by
  cases result with
  | error defect =>
      cases failed
      constructor
      · intro sound
        obtain ⟨_, passed⟩ := needed sound
        cases passed
      · exact .inr ⟨known, defect, rfl⟩
  | ok _ => cases failed

end Descriptor

namespace Command

section Nodes

variable {descriptor : Descriptor} (zero : Scalar.exact (Scalar.zero : α) = some 0)
include zero

/-- A node that compiles is sound. -/
theorem isSound_of_compile {command : Command α} (compiled : compile descriptor = .ok command) :
    descriptor.IsSound α := by
  obtain ⟨kind, label, params, body⟩ := descriptor
  rw [compile] at compiled
  simp only [beq_iff_eq] at compiled
  split at compiled
  · rename_i kind
    exact (Descriptor.isSound_iff_of_delay zero kind).mpr ⟨command, under_eq_ok.mp compiled⟩
  split at compiled
  · rename_i kind
    exact (Descriptor.isSound_iff_of_set zero kind).mpr ⟨command, under_eq_ok.mp compiled⟩
  split at compiled
  · rename_i kind
    exact (Descriptor.isSound_iff_of_wait zero kind).mpr ⟨command, under_eq_ok.mp compiled⟩
  split at compiled
  · rename_i kind
    exact (Descriptor.isSound_iff_of_comment zero kind).mpr ⟨command, under_eq_ok.mp compiled⟩
  split at compiled
  · rename_i kind
    obtain ⟨sweep, read, compiled⟩ := bind_eq_ok.mp compiled
    obtain ⟨commands, nested, made⟩ := bind_eq_ok.mp compiled
    have sweeps := under_eq_ok.mp read
    exact (Descriptor.isSound_iff_of_loop zero kind).mpr
      ⟨⟨sweep, sweeps⟩, (exists_loopOf_iff sweeps nested).mp ⟨command, under_eq_ok.mp made⟩⟩
  split at compiled
  · rename_i kind
    obtain ⟨_, known, compiled⟩ := bind_eq_ok.mp compiled
    obtain ⟨commands, nested, made⟩ := bind_eq_ok.mp compiled
    exact (Descriptor.isSound_iff_of_group zero kind).mpr
      ⟨Descriptor.requireNames_eq_ok.mp (under_eq_ok.mp known),
        (exists_groupOf_iff nested).mp ⟨command, under_eq_ok.mp made⟩⟩
  · cases compiled

/-- A descriptor that does not compile is not sound and is to blame for it, or its nested steps do
not compile. -/
theorem cases_of_compile_eq_error {error : ScanError}
    (failed : compile (α := α) descriptor = .error error) :
    (¬descriptor.IsSound α ∧ descriptor.IsBlamed error) ∨
      compileAll (α := α) descriptor.body = .error error := by
  obtain ⟨kind, label, params, body⟩ := descriptor
  rw [compile] at failed
  simp only [beq_iff_eq] at failed
  split at failed
  · rename_i kind
    exact .inl (Descriptor.isBlamed_of_under (by simp [Descriptor.kinds, kind])
      (Descriptor.isSound_iff_of_delay zero kind).mp failed)
  split at failed
  · rename_i kind
    exact .inl (Descriptor.isBlamed_of_under (by simp [Descriptor.kinds, kind])
      (Descriptor.isSound_iff_of_set zero kind).mp failed)
  split at failed
  · rename_i kind
    exact .inl (Descriptor.isBlamed_of_under (by simp [Descriptor.kinds, kind])
      (Descriptor.isSound_iff_of_wait zero kind).mp failed)
  split at failed
  · rename_i kind
    exact .inl (Descriptor.isBlamed_of_under (by simp [Descriptor.kinds, kind])
      (Descriptor.isSound_iff_of_comment zero kind).mp failed)
  split at failed
  · rename_i kind
    have sound : Descriptor.IsSound α ⟨_, label, params, body⟩ ↔ _ :=
      Descriptor.isSound_iff_of_loop zero kind
    rcases bind_eq_error.mp failed with failed | ⟨sweep, read, failed⟩
    · exact .inl (Descriptor.isBlamed_of_under (by simp [Descriptor.kinds, kind])
        (fun whole => (sound.mp whole).1) failed)
    rcases bind_eq_error.mp failed with failed | ⟨commands, nested, failed⟩
    · exact .inr failed
    · exact .inl (Descriptor.isBlamed_of_under (by simp [Descriptor.kinds, kind])
        (fun whole => (exists_loopOf_iff (under_eq_ok.mp read) nested).mpr (sound.mp whole).2)
        failed)
  split at failed
  · rename_i kind
    have sound : Descriptor.IsSound α ⟨_, label, params, body⟩ ↔ _ :=
      Descriptor.isSound_iff_of_group zero kind
    rcases bind_eq_error.mp failed with failed | ⟨_, known, failed⟩
    · exact .inl (Descriptor.isBlamed_of_under (by simp [Descriptor.kinds, kind])
        (fun whole => ⟨(), Descriptor.requireNames_eq_ok.mpr (sound.mp whole).1⟩) failed)
    rcases bind_eq_error.mp failed with failed | ⟨commands, nested, failed⟩
    · exact .inr failed
    · exact .inl (Descriptor.isBlamed_of_under (by simp [Descriptor.kinds, kind])
        (fun whole => (exists_groupOf_iff nested).mpr (sound.mp whole).2) failed)
  · rename_i noDelay noSet noWait noComment noLoop noGroup
    cases failed
    have unknown : kind ∉ Descriptor.kinds := by
      simp [Descriptor.kinds, noDelay, noSet, noWait, noComment, noLoop, noGroup]
    exact .inl ⟨fun sound => unknown sound.kind_mem, .inl ⟨unknown, rfl⟩⟩

end Nodes

section Trees

variable {descriptor step node : Descriptor} {descriptors : List Descriptor} {error : ScanError}

/-- Descriptors in order fail with the error of the first one that does not compile. -/
theorem compileAll_eq_error_iff : compileAll (α := α) descriptors = .error error ↔
    ∃ before step after, descriptors = before ++ step :: after ∧
      (∀ earlier ∈ before, ∃ command : Command α, compile earlier = .ok command) ∧
      compile (α := α) step = .error error := by
  constructor
  · intro failed
    induction descriptors with
    | nil =>
        rw [compileAll] at failed
        cases failed
    | cons first rest ih =>
        rw [compileAll] at failed
        rcases bind_eq_error.mp failed with failed | ⟨command, compiled, failed⟩
        · exact ⟨[], first, rest, rfl, List.forall_mem_nil _, failed⟩
        · rcases bind_eq_error.mp failed with failed | ⟨_, _, failed⟩
          · obtain ⟨before, step, after, rfl, compiles, own⟩ := ih failed
            exact ⟨first :: before, step, after, rfl,
              List.forall_mem_cons.mpr ⟨⟨command, compiled⟩, compiles⟩, own⟩
          · cases failed
  · rintro ⟨before, step, after, rfl, compiles, failed⟩
    induction before with
    | nil => rw [List.nil_append, compileAll, failed]; rfl
    | cons first before ih =>
        obtain ⟨⟨command, compiled⟩, compiles⟩ := List.forall_mem_cons.mp compiles
        rw [List.cons_append, compileAll, compiled]
        exact bind_eq_error.mpr (.inr ⟨command, rfl, bind_eq_error.mpr (.inl (ih compiles))⟩)

/-- Descriptors compile together if and only if each does. -/
theorem exists_compileAll_iff :
    (∃ commands : List (Command α), compileAll descriptors = .ok commands) ↔
      ∀ descriptor ∈ descriptors, ∃ command : Command α, compile descriptor = .ok command := by
  constructor
  · rintro ⟨commands, compiled⟩ descriptor member
    obtain ⟨command, -, own⟩ := exists_compile_of_mem compiled member
    exact ⟨command, own⟩
  · intro each
    cases compiled : compileAll (α := α) descriptors with
    | ok commands => exact ⟨commands, rfl⟩
    | error error =>
        obtain ⟨before, step, after, rfl, -, failed⟩ := compileAll_eq_error_iff.mp compiled
        obtain ⟨command, own⟩ := each step (by simp)
        cases failed.symm.trans own

omit [Scalar α] in
theorem within_of_mem_body (member : step ∈ descriptor.body) (within : node.Within [step]) :
    node.Within [descriptor] := by
  induction within with
  | top same =>
      cases List.mem_singleton.mp same
      exact .nested (.top (List.mem_singleton_self descriptor)) member
  | nested _ member ih => exact .nested ih member

variable (zero : Scalar.exact (Scalar.zero : α) = some 0)
include zero

/-- When a descriptor does not compile, a node of its tree is not sound and to blame. -/
theorem exists_blamed_of_compile (descriptor : Descriptor) :
    ∀ error, compile (α := α) descriptor = .error error →
      ∃ node : Descriptor, node.Within [descriptor] ∧ ¬node.IsSound α ∧ node.IsBlamed error := by
  induction descriptor using Descriptor.forall_of_body with | _ descriptor nested
  intro error failed
  rcases cases_of_compile_eq_error zero failed with ⟨unsound, blamed⟩ | failed
  · exact ⟨descriptor, .top (List.mem_singleton_self descriptor), unsound, blamed⟩
  · obtain ⟨before, step, after, split, -, failed⟩ := compileAll_eq_error_iff.mp failed
    have member : step ∈ descriptor.body := by simp [split]
    obtain ⟨node, within, unsound, blamed⟩ := nested step member error failed
    exact ⟨node, within_of_mem_body member within, unsound, blamed⟩

/-- A descriptor compiles if and only if it is well formed. -/
theorem exists_compile_iff :
    (∃ command : Command α, compile descriptor = .ok command) ↔ descriptor.IsWellFormed α := by
  constructor
  · rintro ⟨command, compiled⟩ node within
    have alone : compileAll [descriptor] = .ok [command] := by
      rw [compileAll, compiled]
      rfl
    obtain ⟨⟨_, own⟩, -⟩ := exists_compile_of_within alone within
    exact isSound_of_compile zero own
  · intro whole
    cases compiled : compile (α := α) descriptor with
    | ok command => exact ⟨command, rfl⟩
    | error error =>
        obtain ⟨node, within, unsound, -⟩ := exists_blamed_of_compile zero descriptor error compiled
        exact absurd (whole node within) unsound

end Trees

end Command

/-- A sequence is refused with the error of the first of its steps that does not compile, or, when
all are well formed, because their work is too much for a word. -/
theorem Sequencer.ofSequence_eq_error_iff (zero : Scalar.exact (Scalar.zero : α) = some 0)
    {sequence : Sequence} {pollInterval : Duration} {error : ScanError} :
    Sequencer.ofSequence (α := α) sequence pollInterval = .error error ↔
      (∃ before step after, sequence.steps = before ++ step :: after ∧
        (∀ earlier ∈ before, earlier.IsWellFormed α) ∧
        Command.compile (α := α) step = .error error) ∨
      ((∀ step ∈ sequence.steps, step.IsWellFormed α) ∧
        2 ^ 64 ≤ Descriptor.unitsAll α sequence.steps ∧
        error = Defect.workOverflow.error "sequence") := by
  simp only [ofSequence, bind_eq_error, Command.compileAll_eq_error_iff, ←
    Command.exists_compile_iff zero, ← Command.exists_compileAll_iff]
  apply or_congr_right
  constructor
  · rintro ⟨steps, compiled, failed⟩
    split at failed
    · cases failed
    · rename_i overflow
      cases failed
      refine ⟨⟨steps, compiled⟩, ?_, rfl⟩
      by_contra fits
      rw [← Command.unitsAll_of_compileAll compiled, Nat.not_le, ← Work.exists_sum?_iff] at fits
      obtain ⟨total, summed⟩ := fits
      cases overflow.symm.trans summed
  · rintro ⟨⟨steps, compiled⟩, large, rfl⟩
    refine ⟨steps, compiled, ?_⟩
    cases summed : Command.totalWork? steps with
    | none => rfl
    | some total =>
        have small := Work.exists_sum?_iff.mp ⟨total, summed⟩
        rw [Command.unitsAll_of_compileAll compiled] at small
        exact absurd small (Nat.not_lt.mpr large)

/-- What a descriptor has to be. It compiles if and only if every node of its tree is sound; if one
is not, the error is about such a node: that there is no such kind, or what is wrong with it as one
of its kind. A sequence is refused with the error of the first of its steps that does not compile,
or else because the work of them all does not fit a word. -/
theorem well_formed_descriptors_compile (descriptor : Descriptor) (sequence : Sequence)
    (pollInterval : Duration) :
    ((∃ command : Command Float, Command.compile descriptor = .ok command) ↔
      descriptor.IsWellFormed Float) ∧
    (∀ error, Command.compile (α := Float) descriptor = .error error →
      ∃ node : Descriptor, node.Within [descriptor] ∧ ¬node.IsSound Float ∧
        ((node.kind ∉ Descriptor.kinds ∧ error = .compilation node.kind) ∨
          (node.kind ∈ Descriptor.kinds ∧
            ∃ defect : Defect, error = .validation node.kind defect.message))) ∧
    (∀ error, Sequencer.ofSequence (α := Float) sequence pollInterval = .error error ↔
      (∃ before step after, sequence.steps = before ++ step :: after ∧
        (∀ earlier ∈ before, earlier.IsWellFormed Float) ∧
        Command.compile (α := Float) step = .error error) ∨
      ((∀ step ∈ sequence.steps, step.IsWellFormed Float) ∧
        2 ^ 64 ≤ Descriptor.unitsAll Float sequence.steps ∧
        error = Defect.workOverflow.error "sequence")) := by
  have zero : Scalar.exact (Scalar.zero : Float) = some 0 := by decide +kernel
  exact ⟨Command.exists_compile_iff zero, Command.exists_blamed_of_compile zero descriptor,
    fun _ => Sequencer.ofSequence_eq_error_iff zero⟩

end Scan
