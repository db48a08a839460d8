import Scan.Proofs.Refusals

/-!
# Work that does not fit a word

A tree in which nothing else is wrong is refused just if the exact work of one of its nodes does not
fit a machine word: that of all nested steps together, that of one pass of a loop, or that of all
its passes. What is not refused has its exact work.
-/

namespace Scan

variable {α : Type} [Scalar α]

namespace Descriptor

section Nodes

variable (α) (descriptor : Descriptor)

/-- Whether a node is sound but for the work of its nested steps: it would be sound if there were
none, and has none if it is of a kind that takes none. -/
def IsSoundApartFromWork : Prop :=
  (descriptor.kind ∈ ["loop", "group"] ∨ descriptor.body = []) ∧
    (descriptor.withBody []).IsSound α

/-- Whether a step of the reckoning of a node's work leads to more than a word holds. -/
def Overflows : Prop :=
  descriptor.kind = "loop" ∧
      (2 ^ 64 - 1 < unitsAll α descriptor.body ∨ 2 ^ 64 - 1 < unitsAll α descriptor.body + 1 ∨
        2 ^ 64 - 1 < (unitsAll α descriptor.body + 1) * descriptor.valueCount α) ∨
    descriptor.kind = "group" ∧ 2 ^ 64 - 1 < unitsAll α descriptor.body

end Nodes

section Soundness

variable {descriptor : Descriptor}

/-- A loop over a range that is accepted has no more values than are allowed. -/
theorem HasRange.valueCount_le (range : descriptor.HasRange α) :
    descriptor.valueCount α ≤ maxIterations := by
  obtain ⟨start, stop, step, count, starts, stops, steps, -, counted, few⟩ := range
  simpa [valueCount, starts, stops, steps, counted] using few

theorem completes_withBody {body : List Descriptor} :
    (descriptor.withBody body).Completes α ↔ descriptor.Completes α :=
  ⟨fun completes => ⟨completes.wait, completes.readback, completes.tolerance, completes.timeout⟩,
    fun completes => ⟨completes.wait, completes.readback, completes.tolerance, completes.timeout⟩⟩

theorem unitsAll_withBody_nil (descriptor : Descriptor) :
    unitsAll α (descriptor.withBody []).body = 0 := by
  rw [withBody, unitsAll]

theorem not_overflows_iff_of_loop (kind : descriptor.kind = "loop") : ¬descriptor.Overflows α ↔
    unitsAll α descriptor.body + 1 < 2 ^ 64 ∧
      (unitsAll α descriptor.body + 1) * descriptor.valueCount α < 2 ^ 64 := by
  have noGroup : descriptor.kind ≠ "group" := by simp [kind]
  rw [Overflows, and_iff_right kind, or_iff_left fun group => noGroup group.1]
  omega

theorem not_overflows_iff_of_group (kind : descriptor.kind = "group") : ¬descriptor.Overflows α ↔
    unitsAll α descriptor.body < 2 ^ 64 := by
  have noLoop : descriptor.kind ≠ "loop" := by simp [kind]
  rw [Overflows, and_iff_right kind, or_iff_right fun loop => noLoop loop.1]
  omega

/-- A node is sound if and only if it is so apart from its work, and this fits. -/
theorem isSound_iff_of_work : descriptor.IsSound α ↔
    descriptor.IsSoundApartFromWork α ∧ ¬descriptor.Overflows α := by
  constructor
  · intro sound
    cases sound with
    | delay kind known flat seconds =>
        exact ⟨⟨.inr flat, .delay kind known rfl seconds⟩, by simp [Overflows, kind]⟩
    | set kind known flat channel value completes =>
        exact ⟨⟨.inr flat, .set kind known rfl channel value (completes_withBody.mpr completes)⟩,
          by simp [Overflows, kind]⟩
    | wait kind known flat channel comparison value tolerance timeout =>
        exact ⟨⟨.inr flat, .wait kind known rfl channel comparison value tolerance timeout⟩,
          by simp [Overflows, kind]⟩
    | comment kind known flat text =>
        exact ⟨⟨.inr flat, .comment kind known rfl text⟩, by simp [Overflows, kind]⟩
    | loop kind known channel range completes perValue total =>
        have few : (descriptor.withBody []).valueCount α ≤ maxIterations := range.valueCount_le
        refine ⟨⟨.inl (by simp [kind]), .loop kind known channel range
          (completes_withBody.mpr completes) (by simp [unitsAll_withBody_nil]) ?_⟩,
          (not_overflows_iff_of_loop kind).mpr ⟨perValue, total⟩⟩
        rw [unitsAll_withBody_nil, zero_add, one_mul]
        exact few.trans_lt (by decide)
    | group kind known total =>
        exact ⟨⟨.inl (by simp [kind]), .group kind known (by simp [unitsAll_withBody_nil])⟩,
          (not_overflows_iff_of_group kind).mpr total⟩
  · rintro ⟨⟨nested, sound⟩, fits⟩
    cases sound with
    | delay kind known _ seconds =>
        have kind : descriptor.kind = "delay" := kind
        exact .delay kind known (nested.resolve_left (by simp [kind])) seconds
    | set kind known _ channel value completes =>
        have kind : descriptor.kind = "set" := kind
        exact .set kind known (nested.resolve_left (by simp [kind])) channel value
          (completes_withBody.mp completes)
    | wait kind known _ channel comparison value tolerance timeout =>
        have kind : descriptor.kind = "wait" := kind
        exact .wait kind known (nested.resolve_left (by simp [kind])) channel comparison value
          tolerance timeout
    | comment kind known _ text =>
        have kind : descriptor.kind = "comment" := kind
        exact .comment kind known (nested.resolve_left (by simp [kind])) text
    | loop kind known channel range completes =>
        have kind : descriptor.kind = "loop" := kind
        obtain ⟨perValue, total⟩ := (not_overflows_iff_of_loop kind).mp fits
        exact .loop kind known channel range (completes_withBody.mp completes) perValue total
    | group kind known =>
        have kind : descriptor.kind = "group" := kind
        exact .group kind known ((not_overflows_iff_of_group kind).mp fits)

end Soundness

section Trees

variable {node step : Descriptor} {steps : List Descriptor}

theorem Within.of_mem (within : node.Within [step]) (member : step ∈ steps) :
    node.Within steps := by
  induction within with
  | top same =>
      cases List.mem_singleton.mp same
      exact .top member
  | nested _ nested ih => exact .nested ih nested

theorem Within.exists_mem (within : node.Within steps) : ∃ step ∈ steps, node.Within [step] := by
  induction within with
  | top member => exact ⟨_, member, .top (List.mem_singleton_self _)⟩
  | nested _ nested ih =>
      obtain ⟨step, member, own⟩ := ih
      exact ⟨step, member, .nested own nested⟩

end Trees

end Descriptor

/-! ## Exact work -/

namespace Command

mutual

/-- The work of a command as an exact number: one for each iteration of a loop besides that of its
body. -/
def exactWork : Command α → Nat
  | .loop _ sweep body _ => sweep.iterations * (1 + exactWorkAll body)
  | .group _ children _ => exactWorkAll children
  | .delay .. | .set .. | .wait .. | .comment .. => 1

/-- The work of commands together. -/
def exactWorkAll : List (Command α) → Nat
  | [] => 0
  | command :: rest => exactWork command + exactWorkAll rest

end

omit [Scalar α] in
theorem exactWorkAll_eq_sum {commands : List (Command α)} :
    exactWorkAll commands = (commands.map exactWork).sum := by
  induction commands with
  | nil => rw [exactWorkAll]; rfl
  | cons command rest ih => rw [exactWorkAll, ih, List.map_cons, List.sum_cons]

omit [Scalar α] in
theorem exactWork_of_leaf {command : Command α} (leaf : command.isComposite = false) :
    command.exactWork = 1 := by
  cases command with
  | delay | set | wait | comment => rw [exactWork]
  | loop | group => cases leaf

/-- What descriptors compile to is as much exact work as they come to, if each is. -/
theorem exactWorkAll_of_forall {descriptors : List Descriptor} {commands : List (Command α)}
    (each : ∀ descriptor ∈ descriptors, ∀ command : Command α,
      compile descriptor = .ok command → command.exactWork = descriptor.units α)
    (compiled : compileAll descriptors = .ok commands) :
    exactWorkAll commands = Descriptor.unitsAll α descriptors := by
  rw [exactWorkAll_eq_sum, Descriptor.unitsAll_eq_sum, map_eq_of_compileAll each compiled]

/-- What a descriptor compiles to is as much exact work as it comes to. -/
theorem exactWork_of_compile (descriptor : Descriptor) :
    ∀ command : Command α, compile descriptor = .ok command →
      command.exactWork = descriptor.units α := by
  induction descriptor using Descriptor.forall_of_body with | _ descriptor nested
  intro command compiled
  rw [Descriptor.units_eq]
  rcases compile_eq_ok compiled with
    ⟨noLoop, noGroup, leaf⟩ | ⟨kind, sweep, body, read, compiledBody, made⟩ |
      ⟨kind, children, compiledBody, made⟩
  · rw [if_neg noLoop, if_neg noGroup, exactWork_of_leaf leaf]
  · obtain ⟨-, -, -, counted⟩ := sweepOf_eq_ok read
    obtain ⟨_, work, perPass, rfl, -⟩ := loopOf_eq_ok (iterationCount_le counted) made
    rw [if_pos kind, exactWork, valueCount_of_sweepOf read,
      exactWorkAll_of_forall nested compiledBody, mul_comm, add_comm]
  · obtain ⟨_, work, rfl, -⟩ := groupOf_eq_ok made
    have noLoop : descriptor.kind ≠ "loop" := by
      rw [kind]
      decide
    rw [if_neg noLoop, if_pos kind, exactWork, exactWorkAll_of_forall nested compiledBody]

theorem exactWorkAll_of_compileAll {descriptors : List Descriptor} {commands : List (Command α)}
    (compiled : compileAll descriptors = .ok commands) :
    exactWorkAll commands = Descriptor.unitsAll α descriptors :=
  exactWorkAll_of_forall (fun descriptor _ => exactWork_of_compile descriptor) compiled

end Command

/-! ## Errors -/

namespace Command

section Nodes

variable {descriptor : Descriptor} {error : ScanError}

/-- A loop is compiled from its range, then from its nested steps. -/
theorem compile_of_loop (kind : descriptor.kind = "loop") :
    compile (α := α) descriptor = (do
      let sweep ← Defect.under "loop" (sweepOf descriptor)
      let commands ← compileAll descriptor.body
      Defect.under "loop" (loopOf descriptor sweep commands)) := by
  obtain ⟨_, label, params, body⟩ := descriptor
  cases kind
  rw [compile]
  simp

/-- A group is compiled from its nested steps. -/
theorem compile_of_group (kind : descriptor.kind = "group") :
    compile (α := α) descriptor = (do
      Defect.under "group" (descriptor.requireNames [])
      let commands ← compileAll descriptor.body
      Defect.under "group" (groupOf descriptor commands)) := by
  obtain ⟨_, label, params, body⟩ := descriptor
  cases kind
  rw [compile]
  simp

/-- Whatever a loop is made of, it can be refused only for its work. -/
theorem under_loopOf_eq_error {sweep : Sweep α} {commands : List (Command α)}
    (failed : Defect.under "loop" (loopOf descriptor sweep commands) = .error error) :
    error = .validation "loop" "total work overflows" := by
  simp only [loopOf] at failed
  split at failed <;> cases failed
  rfl

omit [Scalar α] in
/-- Whatever a group is made of, it can be refused only for its work. -/
theorem under_groupOf_eq_error {commands : List (Command α)}
    (failed : Defect.under "group" (groupOf descriptor commands) = .error error) :
    error = .validation "group" "total work overflows" := by
  simp only [groupOf] at failed
  split at failed <;> cases failed
  rfl

variable (zero : Scalar.exact (Scalar.zero : α) = some 0)
include zero

/-- The range of a loop that is sound apart from its work is read. -/
theorem exists_sweepOf_of_apart (kind : descriptor.kind = "loop")
    (apart : descriptor.IsSoundApartFromWork α) :
    ∃ sweep : Sweep α, sweepOf descriptor = .ok sweep := by
  have bareKind : (descriptor.withBody []).kind = "loop" := kind
  obtain ⟨bare, -⟩ := (Descriptor.isSound_iff_of_loop zero bareKind).mp apart.2
  obtain ⟨known, channel, range, completes⟩ := (exists_sweepOf_iff zero).mp bare
  exact (exists_sweepOf_iff zero).mpr
    ⟨known, channel, range, Descriptor.completes_withBody.mp completes⟩

/-- A group that is sound apart from its work passes the check of its parameters. -/
theorem requireNames_of_apart (kind : descriptor.kind = "group")
    (apart : descriptor.IsSoundApartFromWork α) : descriptor.requireNames [] = .ok () := by
  have bareKind : (descriptor.withBody []).kind = "group" := kind
  exact Descriptor.requireNames_eq_ok.mpr
    ((Descriptor.isSound_iff_of_group zero bareKind).mp apart.2).1

/-- A node that is sound apart from its work fails because its work overflows, or its nested steps
fail. -/
theorem overflows_of_compile_eq_error (apart : descriptor.IsSoundApartFromWork α)
    (failed : compile (α := α) descriptor = .error error) :
    (descriptor.Overflows α ∧ error = .validation descriptor.kind "total work overflows") ∨
      compileAll (α := α) descriptor.body = .error error := by
  rcases cases_of_compile_eq_error zero failed with ⟨unsound, -⟩ | nestedFailed
  · have large : descriptor.Overflows α := by
      by_contra fits
      exact unsound (Descriptor.isSound_iff_of_work.mpr ⟨apart, fits⟩)
    have kinds : descriptor.kind = "loop" ∨ descriptor.kind = "group" :=
      large.imp And.left And.left
    rcases kinds with kind | kind
    · obtain ⟨sweep, read⟩ := exists_sweepOf_of_apart zero kind apart
      rw [compile_of_loop kind, read] at failed
      have failed : (compileAll descriptor.body >>= fun commands =>
          Defect.under "loop" (loopOf descriptor sweep commands)) = .error error := failed
      rcases bind_eq_error.mp failed with nestedFailed | ⟨commands, -, failed⟩
      · exact .inr nestedFailed
      · exact .inl ⟨large, kind ▸ under_loopOf_eq_error failed⟩
    · rw [compile_of_group kind, requireNames_of_apart zero kind apart] at failed
      have failed : (compileAll descriptor.body >>= fun commands =>
          Defect.under "group" (groupOf (α := α) descriptor commands)) = .error error := failed
      rcases bind_eq_error.mp failed with nestedFailed | ⟨commands, -, failed⟩
      · exact .inr nestedFailed
      · exact .inl ⟨large, kind ▸ under_groupOf_eq_error failed⟩
  · exact .inr nestedFailed

end Nodes

section Trees

variable {descriptor : Descriptor} (zero : Scalar.exact (Scalar.zero : α) = some 0)
include zero

/-- A tree that is sound apart from its work fails only for that of one of its nodes. -/
theorem exists_overflows_of_compile (descriptor : Descriptor) :
    (∀ node : Descriptor, node.Within [descriptor] → node.IsSoundApartFromWork α) →
    ∀ error, compile (α := α) descriptor = .error error →
      ∃ node : Descriptor, node.Within [descriptor] ∧ node.Overflows α ∧
        error = .validation node.kind "total work overflows" := by
  induction descriptor using Descriptor.forall_of_body with | _ descriptor nested
  intro apart error failed
  have top : descriptor.Within [descriptor] := .top (List.mem_singleton_self descriptor)
  rcases overflows_of_compile_eq_error zero (apart descriptor top) failed with
    ⟨large, named⟩ | failed
  · exact ⟨descriptor, top, large, named⟩
  · obtain ⟨before, step, after, split, -, failed⟩ := compileAll_eq_error_iff.mp failed
    have member : step ∈ descriptor.body := by simp [split]
    obtain ⟨node, within, found⟩ := nested step member
      (fun node within => apart node (within_of_mem_body member within)) error failed
    exact ⟨node, within_of_mem_body member within, found⟩

/-- No node of a tree that compiles has work that does not fit. -/
theorem not_overflows_of_compile {command : Command α} {node : Descriptor}
    (compiled : compile descriptor = .ok command) (within : node.Within [descriptor]) :
    ¬node.Overflows α :=
  (Descriptor.isSound_iff_of_work.mp
    ((exists_compile_iff zero).mp ⟨command, compiled⟩ node within)).2

/-- A tree that is sound apart from its work is refused for it just if that of a node does not
fit. -/
theorem refused_for_work_iff
    (apart : ∀ node : Descriptor, node.Within [descriptor] → node.IsSoundApartFromWork α) :
    (∃ kind, compile (α := α) descriptor = .error (.validation kind "total work overflows")) ↔
      ∃ node : Descriptor, node.Within [descriptor] ∧ node.Overflows α := by
  constructor
  · rintro ⟨kind, failed⟩
    obtain ⟨node, within, large, -⟩ := exists_overflows_of_compile zero descriptor apart _ failed
    exact ⟨node, within, large⟩
  · rintro ⟨node, within, large⟩
    cases compiled : compile (α := α) descriptor with
    | ok command => exact absurd large (not_overflows_of_compile zero compiled within)
    | error error =>
        obtain ⟨named, -, -, rfl⟩ :=
          exists_overflows_of_compile zero descriptor apart error compiled
        exact ⟨named.kind, rfl⟩

end Trees

end Command

/-! ## Sequences -/

namespace Sequencer

section Sequences

variable {sequence : Sequence} {pollInterval : Duration} {error : ScanError}
variable (zero : Scalar.exact (Scalar.zero : α) = some 0)

/-- The total work of an accepted sequence is that of its steps. -/
theorem toNat_totalWork_of_ofSequence {sequencer : Sequencer α}
    (accepted : ofSequence sequence pollInterval = .ok sequencer) :
    sequencer.totalWork.toNat = Descriptor.unitsAll α sequence.steps := by
  obtain ⟨compiled, summed, -⟩ := ofSequence_eq_ok accepted
  rw [← Command.unitsAll_of_compileAll compiled]
  exact Work.toNat_sum? summed

include zero

/-- A sequence that is sound apart from its work fails only for that of one of its nodes, or for
that of all its steps. -/
theorem overflows_of_ofSequence_eq_error
    (apart : ∀ node : Descriptor, node.Within sequence.steps → node.IsSoundApartFromWork α)
    (failed : ofSequence (α := α) sequence pollInterval = .error error) :
    (∃ node : Descriptor, node.Within sequence.steps ∧ node.Overflows α ∧
        error = .validation node.kind "total work overflows") ∨
      2 ^ 64 - 1 < Descriptor.unitsAll α sequence.steps ∧
        error = .validation "sequence" "total work overflows" := by
  rcases (ofSequence_eq_error_iff zero).mp failed with
    ⟨before, step, after, split, -, failed⟩ | ⟨-, large, named⟩
  · have member : step ∈ sequence.steps := by simp [split]
    obtain ⟨node, within, found⟩ := Command.exists_overflows_of_compile zero step
      (fun node within => apart node (within.of_mem member)) error failed
    exact .inl ⟨node, within.of_mem member, found⟩
  · exact .inr ⟨by omega, named⟩

/-- A sequence that is sound apart from its work is refused for it just if that of a node, or that
of all its steps, does not fit. -/
theorem refused_for_work_iff
    (apart : ∀ node : Descriptor, node.Within sequence.steps → node.IsSoundApartFromWork α) :
    (∃ kind, ofSequence (α := α) sequence pollInterval =
        .error (.validation kind "total work overflows")) ↔
      (∃ node : Descriptor, node.Within sequence.steps ∧ node.Overflows α) ∨
        2 ^ 64 - 1 < Descriptor.unitsAll α sequence.steps := by
  constructor
  · rintro ⟨kind, failed⟩
    rcases overflows_of_ofSequence_eq_error zero apart failed with
      ⟨node, within, large, -⟩ | ⟨large, -⟩
    · exact .inl ⟨node, within, large⟩
    · exact .inr large
  · intro large
    cases made : ofSequence (α := α) sequence pollInterval with
    | ok sequencer =>
        rcases large with ⟨node, within, large⟩ | large
        · obtain ⟨step, member, own⟩ := within.exists_mem
          obtain ⟨command, -, compiled⟩ :=
            Command.exists_compile_of_mem (ofSequence_eq_ok made).1 member
          exact absurd large (Command.not_overflows_of_compile zero compiled own)
        · rw [← toNat_totalWork_of_ofSequence made] at large
          exact absurd sequencer.totalWork.toNat_lt (by omega)
    | error error =>
        rcases overflows_of_ofSequence_eq_error zero apart made with
          ⟨node, -, -, rfl⟩ | ⟨-, rfl⟩
        · exact ⟨node.kind, rfl⟩
        · exact ⟨"sequence", rfl⟩

end Sequences

end Sequencer

/-! ## Loops within loops -/

namespace Descriptor

/-- Loops of a million values each, one within another. -/
def millions : Nat → Descriptor
  | 0 => loopOver "a" 1 1000000 1 []
  | depth + 1 => loopOver "a" 1 1000000 1 [millions depth]

theorem kind_millions (depth : Nat) : (millions depth).kind = "loop" := by
  cases depth <;> rfl

theorem valueCount_millions (depth : Nat) : (millions depth).valueCount Float = 1000000 := by
  have count : (loopOver "a" 1 1000000 1 []).valueCount Float = 1000000 := by decide +kernel
  cases depth <;> exact count

theorem units_millions (depth : Nat) : (millions depth).units Float =
    (unitsAll Float (millions depth).body + 1) * 1000000 := by
  rw [units_eq, if_pos (kind_millions depth), valueCount_millions]

theorem unitsAll_body_millions (depth : Nat) :
    unitsAll Float (millions (depth + 1)).body = (millions depth).units Float := by
  rw [millions, loopOver, unitsAll, unitsAll, Nat.add_zero]

theorem isSoundApartFromWork_millions (depth : Nat) :
    (millions depth).IsSoundApartFromWork Float := by
  have sound : (loopOver "a" 1 1000000 1 []).IsSound Float :=
    .loop rfl (by simp [HasOnly, loopOver, Json.Members.names]) ⟨"a", rfl, by decide⟩
      ⟨1, 1000000, 1, 1000000, by decide +kernel⟩
      ⟨.inl (.inl rfl), .inl (.inl rfl), .inl (.inl rfl), .inl (.inl rfl)⟩
      (by decide +kernel) (by decide +kernel)
  cases depth <;> exact ⟨.inl List.mem_cons_self, sound⟩

theorem exists_eq_millions {node : Descriptor} {depth : Nat}
    (within : node.Within [millions depth]) : ∃ inner ≤ depth, node = millions inner := by
  induction within with
  | top member => exact ⟨depth, le_rfl, List.mem_singleton.mp member⟩
  | nested _ member ih =>
      obtain ⟨inner, deep, rfl⟩ := ih
      cases inner with
      | zero => cases member
      | succ inner => exact ⟨inner, Nat.le_of_succ_le deep, List.mem_singleton.mp member⟩

/-- Three of these loops have work that fits, four have not. -/
theorem overflows_millions_iff {depth : Nat} (few : depth ≤ 3) :
    (millions depth).Overflows Float ↔ depth = 3 := by
  have bare : unitsAll Float (millions 0).body = 0 := by rw [millions, loopOver, unitsAll]
  have one : (millions 0).units Float = 1000000 := by rw [units_millions, bare]
  have two : (millions 1).units Float = 1000001000000 := by
    rw [units_millions, unitsAll_body_millions, one]
  have three : (millions 2).units Float = 1000001000001000000 := by
    rw [units_millions, unitsAll_body_millions, two]
  rw [← not_iff_not, not_overflows_iff_of_loop (kind_millions depth), valueCount_millions]
  have depths : depth = 0 ∨ depth = 1 ∨ depth = 2 ∨ depth = 3 := by omega
  rcases depths with rfl | rfl | rfl | rfl
  · simp [bare]
  · simp [unitsAll_body_millions, one]
  · simp [unitsAll_body_millions, two]
  · simp [unitsAll_body_millions, three]

end Descriptor

/-! ## Exact or refused -/

/-- Work is exact or refused. What a descriptor compiles to, and the total of a sequence, is the
exact work: one unit for each leaf, the sum of the children for a group and, for each iteration of a
loop, one besides the sum of its body. A tree or a sequence with nothing else wrong is refused for
its work if and only if, at some node, the sum of a body, that with one more or the product of this
with the iterations, or the sum of a group or of all steps does not fit a word. -/
theorem work_is_exact_or_refused (descriptor : Descriptor) (sequence : Sequence)
    (pollInterval : Duration) :
    (∀ command : Command Float, Command.compile descriptor = .ok command →
      command.workUnits.toNat = command.exactWork ∧
        command.exactWork = descriptor.units Float) ∧
    (∀ sequencer : Sequencer Float, Sequencer.ofSequence sequence pollInterval = .ok sequencer →
      sequencer.totalWork.toNat = (sequencer.steps.map Command.exactWork).sum) ∧
    ((∀ node : Descriptor, node.Within [descriptor] → node.IsSoundApartFromWork Float) →
      ((∃ kind, Command.compile (α := Float) descriptor =
          .error (.validation kind "total work overflows")) ↔
        ∃ node : Descriptor, node.Within [descriptor] ∧ node.Overflows Float)) ∧
    ((∀ node : Descriptor, node.Within sequence.steps → node.IsSoundApartFromWork Float) →
      ((∃ kind, Sequencer.ofSequence (α := Float) sequence pollInterval =
          .error (.validation kind "total work overflows")) ↔
        (∃ node : Descriptor, node.Within sequence.steps ∧ node.Overflows Float) ∨
          2 ^ 64 - 1 < (sequence.steps.map (Descriptor.units Float)).sum)) := by
  have zero : Scalar.exact (Scalar.zero : Float) = some 0 := by decide +kernel
  refine ⟨fun command compiled => ?_, fun sequencer accepted => ?_,
    Command.refused_for_work_iff zero, fun apart => ?_⟩
  · have exact := Command.exactWork_of_compile descriptor command compiled
    exact ⟨(Command.toNat_workUnits_of_compile descriptor command compiled).trans exact.symm, exact⟩
  · rw [Sequencer.toNat_totalWork_of_ofSequence accepted, ← Command.exactWorkAll_eq_sum]
    exact (Command.exactWorkAll_of_compileAll (Sequencer.ofSequence_eq_ok accepted).1).symm
  · rw [← Descriptor.unitsAll_eq_sum]
    exact Sequencer.refused_for_work_iff zero apart

/-- The work of three loops of a million values within one another fits, but not that of four. -/
theorem fourth_million_loop_is_refused :
    (¬∃ kind, Command.compile (α := Float) (.millions 2) =
        .error (.validation kind "total work overflows")) ∧
      ∃ kind, Command.compile (α := Float) (.millions 3) =
        .error (.validation kind "total work overflows") := by
  have refused := fun depth : Nat =>
    (work_is_exact_or_refused (.millions depth) ⟨none, []⟩ ⟨0⟩).2.2.1 fun node within => by
      obtain ⟨inner, -, rfl⟩ := Descriptor.exists_eq_millions within
      exact Descriptor.isSoundApartFromWork_millions inner
  constructor
  · rw [refused]
    rintro ⟨node, within, large⟩
    obtain ⟨inner, shallow, rfl⟩ := Descriptor.exists_eq_millions within
    rw [Descriptor.overflows_millions_iff (shallow.trans (by decide))] at large
    omega
  · rw [refused]
    exact ⟨_, .top (List.mem_singleton_self _),
      (Descriptor.overflows_millions_iff le_rfl).mpr rfl⟩

end Scan
