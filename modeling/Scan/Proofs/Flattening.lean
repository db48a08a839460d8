import Scan.Proofs.Expansion

/-!
# Flat sequences

A flat sequence has no groups and no loops. Every sequence has a flat one that does the same units
of work: a group is replaced by its steps, and a loop by a write of each of its values in turn, with
the steps of its body behind it. If the values of the loops are finite, so that they can be written
down, the flat sequence is accepted along with the nested one, and its steps are the units of work
of the nested one.
-/

namespace Scan

/-! ## Units of work as steps -/

/-- The step that does a unit of work by itself. -/
def WorkUnit.command {α : Type} [Scalar α] : WorkUnit α → Command α
  | .leaf command => command
  | .value sweep iteration =>
      let value := sweep.value iteration
      .set ("Set '" ++ sweep.channel ++ "' = " ++ Scalar.text value ++ sweep.completion.suffix)
        ⟨sweep.channel, .literal value, sweep.completion⟩

namespace Command

variable {α : Type}

mutual

/-- The steps among the units of a command have no nested steps. -/
theorem isComposite_of_mem_expand : (command : Command α) → {unit : Command α} →
    .leaf unit ∈ command.expand → unit.isComposite = false
  | .loop _ sweep body _, unit, member => by
      obtain ⟨turn, -, same | member⟩ := Sweep.mem_rounds.mp member
      · cases same
      · exact isComposite_of_mem_expandAll body member
  | .group _ children _, unit, member => isComposite_of_mem_expandAll children member
  | .delay .., unit, member | .set .., unit, member | .wait .., unit, member
  | .comment .., unit, member => by
      cases List.mem_singleton.mp member
      rfl

/-- The steps among the units of commands have no nested steps. -/
theorem isComposite_of_mem_expandAll : (commands : List (Command α)) → {unit : Command α} →
    .leaf unit ∈ expandAll commands → unit.isComposite = false
  | [], unit, member => by cases member
  | command :: rest, unit, member => by
      rcases List.mem_append.mp member with member | member
      · exact isComposite_of_mem_expand command member
      · exact isComposite_of_mem_expandAll rest member

end

variable [Scalar α]

/-- The steps of units of work are their own units of work. -/
theorem expandAll_map_command {units : List (WorkUnit α)}
    (plain : ∀ command, .leaf command ∈ units → command.isComposite = false) :
    expandAll (units.map WorkUnit.command) = units.map fun unit => .leaf unit.command := by
  induction units with
  | nil => rfl
  | cons unit rest ih =>
      have own : unit.command.isComposite = false := by
        cases unit with
        | leaf command => exact plain command List.mem_cons_self
        | value => rfl
      have others := ih fun command member => plain command (List.mem_cons_of_mem _ member)
      rw [List.map_cons, expandAll, expand_leaf own, others]
      rfl

end Command

/-! ## Flat descriptors -/

namespace Descriptor

/-- The parameters that say how a write is completed. -/
def completionNames : List String :=
  ["wait", "readback", "tolerance", "timeout"]

/-- The write of one of the values of a loop, completed as the loop says. -/
def assignment (loop : Descriptor) (sweep : Sweep Float) (iteration : Nat) : Descriptor where
  kind := "set"
  params := ("channel", .string sweep.channel) :: ("value", .float (sweep.value iteration)) ::
    loop.params.filter fun member => completionNames.contains member.1

mutual

/-- The steps of a descriptor without groups and loops. -/
def flatten : Descriptor → List Descriptor
  | ⟨kind, label, params, body⟩ =>
      if kind == "group" then flattenAll body
      else if kind == "loop" then
        match Command.sweepOf ⟨kind, label, params, body⟩ with
        | .ok sweep =>
            (List.range sweep.iterations).flatMap fun iteration =>
              assignment ⟨kind, label, params, body⟩ sweep iteration :: flattenAll body
        | .error _ => []
      else [⟨kind, label, params, body⟩]

/-- The steps of descriptors without groups and loops. -/
def flattenAll : List Descriptor → List Descriptor
  | [] => []
  | descriptor :: rest => flatten descriptor ++ flattenAll rest

end

end Descriptor

/-- The sequence without groups and loops. -/
def Sequence.flatten (sequence : Sequence) : Sequence :=
  { sequence with steps := Descriptor.flattenAll sequence.steps }

/-! ## The write of a value -/

section Writes

variable {α : Type} [Scalar α] {first second : Descriptor}

/-- How a write is completed depends on no other parameters than those of a completion. -/
theorem Completion.ofDescriptor_congr {channel : String}
    (same : ∀ name ∈ Descriptor.completionNames, first.param? name = second.param? name) :
    (ofDescriptor first channel : Except Defect (Completion α)) = ofDescriptor second channel := by
  have wait := same "wait" (by decide)
  have readback := same "readback" (by decide)
  have tolerance := same "tolerance" (by decide)
  have timeout := same "timeout" (by decide)
  simp only [ofDescriptor, Descriptor.flag, Descriptor.text?, Descriptor.timeout?,
    Descriptor.duration, Descriptor.nonNegative?, Descriptor.number?, wait, readback, tolerance,
    timeout]

namespace Descriptor

theorem requireNames_of_subset {descriptor : Descriptor} {known : List String}
    (subset : ∀ name ∈ descriptor.params.names, name ∈ known) :
    descriptor.requireNames known = .ok () := by
  have none : descriptor.params.names.find? (fun name => !known.contains name) = none :=
    List.find?_eq_none.mpr (by simpa using subset)
  rw [requireNames, none]

/-- A text that is accepted is not blank. -/
theorem isAllBlank_of_text {descriptor : Descriptor} {name found : String}
    (read : descriptor.text name = .ok found) : Text.isAllBlank found = false := by
  simp only [text, bind_eq_ok] at read
  obtain ⟨optional, read, chosen⟩ := read
  unfold text? at read
  split at read
  · cases read
    cases chosen
  · cases read
    cases chosen
  · split at read
    · cases read
    · rename_i proper
      cases read
      cases chosen
      simpa using proper
  · cases read

variable {loop : Descriptor} {sweep : Sweep Float} {iteration : Nat}

theorem param?_assignment_of_mem {name : String} (member : name ∈ completionNames) :
    (loop.assignment sweep iteration).param? name = loop.param? name := by
  have other : name ≠ "channel" ∧ name ≠ "value" := by
    constructor <;> rintro rfl <;> exact absurd member (by decide)
  have kept : ∀ members : Json.Members,
      Json.Members.get? (members.filter fun member => completionNames.contains member.1) name =
        Json.Members.get? members name := by
    intro members
    rw [Json.Members.get?, Json.Members.get?, List.find?_filter]
    congr 2
    funext entry
    cases same : entry.1 == name with
    | false => simp
    | true => simp [eq_of_beq same, member]
  rw [param?, param?, assignment, Json.Members.get?, List.find?_cons_of_neg, List.find?_cons_of_neg]
  · exact kept loop.params
  · simpa using other.2.symm
  · simpa using other.1.symm

/-- The write of a finite value of a loop is accepted as the step that does its unit of work. -/
theorem compile_assignment (read : Command.sweepOf loop = .ok sweep)
    (finite : (sweep.value iteration).isFinite = true) :
    Command.compile (loop.assignment sweep iteration) =
      .ok (WorkUnit.command (.value sweep iteration)) := by
  obtain ⟨-, channelRead, completionRead, -⟩ := Command.sweepOf_eq_ok read
  have names : (loop.assignment sweep iteration).requireNames
      ["channel", "value", "wait", "readback", "tolerance", "timeout"] = .ok () := by
    apply requireNames_of_subset
    intro name member
    simp only [assignment, Json.Members.names, List.map_cons, List.mem_cons, List.mem_map,
      List.mem_filter] at member
    rcases member with rfl | rfl | ⟨entry, ⟨-, kept⟩, rfl⟩
    · decide
    · decide
    · have listed : entry.1 ∈ completionNames := by simpa using kept
      exact List.mem_cons_of_mem _ (List.mem_cons_of_mem _ listed)
  have body : (loop.assignment sweep iteration).requireNoBody = .ok () := rfl
  have channel : (loop.assignment sweep iteration).text "channel" = .ok sweep.channel := by
    have proper := isAllBlank_of_text channelRead
    have found : (loop.assignment sweep iteration).param? "channel" =
        some (.string sweep.channel) := rfl
    simp only [text, text?, found, proper]
    rfl
  have value : (loop.assignment sweep iteration).quantity "value" =
      .ok (.literal (sweep.value iteration)) := by
    have found : (loop.assignment sweep iteration).param? "value" =
        some (.number (.float (sweep.value iteration))) := by
      change some (Json.Value.float (sweep.value iteration)) = _
      rw [Json.Value.float, if_pos finite]
    simp only [quantity, found, number, number?, Json.Number.toFloat, finite, if_true]
    rfl
  have completion : Completion.ofDescriptor (loop.assignment sweep iteration) sweep.channel =
      .ok sweep.completion := by
    rw [← completionRead]
    exact Completion.ofDescriptor_congr fun name => param?_assignment_of_mem
  have made : Command.setOf (loop.assignment sweep iteration) =
      .ok (WorkUnit.command (.value sweep iteration)) := by
    simp only [Command.setOf, bind_eq_ok]
    exact ⟨(), names, (), body, _, channel, _, value, _, completion, rfl⟩
  rw [assignment, Command.compile]
  exact Command.under_eq_ok.mpr made

end Descriptor

end Writes

/-! ## What flat sequences compile to -/

/-- A unit of work that can be written down: it has a finite value if it has one. -/
def WorkUnit.IsWritable : WorkUnit Float → Prop
  | .leaf _ => True
  | .value sweep iteration => (sweep.value iteration).isFinite = true

namespace Descriptor

variable {descriptor : Descriptor}

theorem flatten_of_leaf (noLoop : descriptor.kind ≠ "loop") (noGroup : descriptor.kind ≠ "group") :
    descriptor.flatten = [descriptor] := by
  obtain ⟨kind, label, params, body⟩ := descriptor
  simp only at noLoop noGroup
  simp [flatten, noLoop, noGroup]

theorem flatten_of_group (group : descriptor.kind = "group") :
    descriptor.flatten = flattenAll descriptor.body := by
  obtain ⟨kind, label, params, body⟩ := descriptor
  simp only at group
  simp [flatten, group]

theorem flatten_of_loop {sweep : Sweep Float} (loop : descriptor.kind = "loop")
    (read : Command.sweepOf descriptor = .ok sweep) :
    descriptor.flatten = (List.range sweep.iterations).flatMap fun iteration =>
      descriptor.assignment sweep iteration :: flattenAll descriptor.body := by
  obtain ⟨kind, label, params, body⟩ := descriptor
  simp only at loop
  subst loop
  simp [flatten, read]

end Descriptor

namespace Command

section Lists

variable {α : Type} [Scalar α]

theorem compileAll_append {first second : List Descriptor} {front behind : List (Command α)}
    (compiledFirst : compileAll first = .ok front)
    (compiledSecond : compileAll second = .ok behind) :
    compileAll (first ++ second) = .ok (front ++ behind) := by
  induction first generalizing front with
  | nil =>
      cases compiledFirst
      exact compiledSecond
  | cons descriptor rest ih =>
      rw [compileAll] at compiledFirst
      obtain ⟨command, compiled, compiledFirst⟩ := bind_eq_ok.mp compiledFirst
      obtain ⟨others, compiledRest, made⟩ := bind_eq_ok.mp compiledFirst
      cases made
      rw [List.cons_append, compileAll]
      exact bind_eq_ok.mpr ⟨command, compiled, bind_eq_ok.mpr ⟨_, ih compiledRest, rfl⟩⟩

theorem compileAll_flatMap {turns : List Nat} {descriptors : Nat → List Descriptor}
    {commands : Nat → List (Command α)}
    (compiled : ∀ turn ∈ turns, compileAll (descriptors turn) = .ok (commands turn)) :
    compileAll (turns.flatMap descriptors) = .ok (turns.flatMap commands) := by
  induction turns with
  | nil => rfl
  | cons turn rest ih =>
      exact compileAll_append (compiled turn List.mem_cons_self)
        (ih fun turn member => compiled turn (List.mem_cons_of_mem _ member))

end Lists

mutual

/-- The flat form of a descriptor is compiled to the units of work of its command. -/
theorem compileAll_flatten : (descriptor : Descriptor) → {command : Command Float} →
    compile descriptor = .ok command → (∀ unit ∈ command.expand, unit.IsWritable) →
      compileAll descriptor.flatten = .ok (command.expand.map WorkUnit.command)
  | ⟨kind, label, params, body⟩, command, compiled, writable => by
      rcases compile_eq_ok compiled with
        ⟨noLoop, noGroup, leaf⟩ | ⟨loop, sweep, nested, read, compiledBody, made⟩ |
          ⟨group, nested, compiledBody, made⟩
      · rw [Descriptor.flatten_of_leaf noLoop noGroup, expand_leaf leaf, compileAll]
        exact bind_eq_ok.mpr ⟨command, compiled, rfl⟩
      · obtain ⟨-, -, -, counted⟩ := sweepOf_eq_ok read
        obtain ⟨_, work, _, rfl, -, -⟩ := loopOf_eq_ok (iterationCount_le counted) made
        rw [Descriptor.flatten_of_loop loop read, expand, Sweep.rounds, List.map_flatMap,
          List.range_eq_range']
        apply compileAll_flatMap
        intro turn member
        have bounded : turn < sweep.iterations := by simpa using member
        have own : (WorkUnit.value sweep turn).IsWritable :=
          writable _ (Sweep.mem_rounds.mpr ⟨turn, bounded, .inl rfl⟩)
        have others : compileAll (Descriptor.flattenAll body) =
            .ok ((expandAll nested).map WorkUnit.command) :=
          compileAll_flattenAll body compiledBody fun unit member =>
            writable unit (Sweep.mem_rounds.mpr ⟨turn, bounded, .inr member⟩)
        rw [compileAll]
        exact bind_eq_ok.mpr ⟨_, Descriptor.compile_assignment read own,
          bind_eq_ok.mpr ⟨_, others, rfl⟩⟩
      · obtain ⟨_, work, rfl, -⟩ := groupOf_eq_ok made
        rw [Descriptor.flatten_of_group group]
        exact compileAll_flattenAll body compiledBody writable

/-- The flat form of descriptors is compiled to the units of work of their commands. -/
theorem compileAll_flattenAll : (descriptors : List Descriptor) →
    {commands : List (Command Float)} → compileAll descriptors = .ok commands →
      (∀ unit ∈ expandAll commands, unit.IsWritable) →
        compileAll (Descriptor.flattenAll descriptors) =
          .ok ((expandAll commands).map WorkUnit.command)
  | [], commands, compiled, _ => by
      rw [compileAll] at compiled
      cases compiled
      rfl
  | descriptor :: rest, commands, compiled, writable => by
      rw [compileAll] at compiled
      obtain ⟨command, compiledFirst, compiled⟩ := bind_eq_ok.mp compiled
      obtain ⟨others, compiledRest, made⟩ := bind_eq_ok.mp compiled
      cases made
      rw [Descriptor.flattenAll, expandAll, List.map_append]
      apply compileAll_append
      · apply compileAll_flatten descriptor compiledFirst
        intro unit member
        exact writable unit (List.mem_append_left _ member)
      · apply compileAll_flattenAll rest compiledRest
        intro unit member
        exact writable unit (List.mem_append_right _ member)

end

end Command

/-! ## The work of flat sequences -/

namespace Work

/-- Words with a sum that is a word have a sum. -/
theorem exists_sum? {counts : List UInt64} (small : (counts.map UInt64.toNat).sum < 2 ^ 64) :
    ∃ total, sum? counts = some total := by
  have general : ∀ (counts : List UInt64) (start : UInt64),
      start.toNat + (counts.map UInt64.toNat).sum < 2 ^ 64 →
        ∃ total, counts.foldlM add? start = some total := by
    intro counts
    induction counts with
    | nil =>
        intro start _
        exact ⟨start, rfl⟩
    | cons count rest ih =>
        intro start small
        rw [List.map_cons, List.sum_cons] at small
        have fits : start.toNat + count.toNat < 2 ^ 64 := by omega
        have added : add? start count = some (UInt64.ofNat (start.toNat + count.toNat)) := by
          rw [add?, ofNat?]
          exact if_pos fits
        obtain ⟨total, summed⟩ := ih (UInt64.ofNat (start.toNat + count.toNat)) (by
          rw [toNat_add? added]
          omega)
        exact ⟨total, by rw [List.foldlM_cons, added]; exact summed⟩
  exact general counts 0 (by simpa using small)

end Work

/-- The flat form of an accepted sequence is accepted, if all that it writes can be written down.
Its steps are the units of work of the sequence. -/
theorem Sequencer.exists_flatten {sequence : Sequence} {pollInterval : Duration}
    {sequencer : Sequencer Float}
    (accepted : Sequencer.ofSequence sequence pollInterval = .ok sequencer)
    (writable : ∀ unit ∈ Command.expandAll sequencer.steps, unit.IsWritable) :
    ∃ flat : Sequencer Float, Sequencer.ofSequence sequence.flatten pollInterval = .ok flat ∧
      flat.steps = (Command.expandAll sequencer.steps).map WorkUnit.command ∧
      flat.totalWork = sequencer.totalWork ∧ flat.pollInterval = sequencer.pollInterval := by
  obtain ⟨compiled, summed, own⟩ := ofSequence_eq_ok accepted
  have flatCompiled := Command.compileAll_flattenAll sequence.steps compiled writable
  have accounted := Command.isAccounted_of_compileAll _ flatCompiled
  have length : (Command.expandAll ((Command.expandAll sequencer.steps).map
      WorkUnit.command)).length = sequencer.totalWork.toNat := by
    rw [Command.expandAll_map_command fun _ => Command.isComposite_of_mem_expandAll _,
      List.length_map, toNat_totalWork accepted]
  have small := sequencer.totalWork.toNat_lt
  rw [← length, ← Command.sum_workUnits accounted] at small
  obtain ⟨total, fits⟩ := Work.exists_sum? small
  refine ⟨⟨sequence.flatten, _, total, pollInterval, {}⟩, ?_, rfl, ?_, ?_⟩
  · rw [ofSequence]
    refine bind_eq_ok.mpr ⟨_, flatCompiled, ?_⟩
    rw [show Command.totalWork? _ = some total from fits]
    rfl
  · rw [← UInt64.toNat_inj, Command.toNat_totalWork? accounted fits, length]
  · rw [own]

end Scan
