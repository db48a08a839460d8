import Mathlib.Data.List.Nodup
import Mathlib.Tactic.SplitIfs
import Scan.Proofs.Readers
import Scan.Proofs.Recompiling

/-!
# Descriptors that say the same

Parameters may be written down in another order, and what is left out may be written down as null.
Neither makes a difference at any depth of a tree: two trees that differ in nothing else are compiled
into the same command or refused for the same reason, so they are run and simulated alike.
-/

namespace Scan

/-! ## Parameters that say the same -/

namespace Json.Members

variable {members other : Members} {name : String} {value : Value}

/-- The members that are not null. -/
def given (members : Members) : Members :=
  members.filter fun member => !member.2.isNull

/-- Whether two lists of members with names of their own differ in nothing but their order and in
what is null. -/
structure Restates (members other : Members) : Prop where
  distinct : members.names.Nodup
  otherDistinct : other.names.Nodup
  given : members.given.Perm other.given

theorem Restates.symm (restates : members.Restates other) : other.Restates members :=
  ⟨restates.otherDistinct, restates.distinct, restates.given.symm⟩

theorem get?_eq_some_iff (distinct : members.names.Nodup) :
    members.get? name = some value ↔ (name, value) ∈ members := by
  induction members with
  | nil => simp [get?]
  | cons first rest ih =>
      obtain ⟨firstName, firstValue⟩ := first
      obtain ⟨apart, distinct⟩ := List.nodup_cons.mp distinct
      by_cases same : firstName = name
      · subst same
        have missing : (firstName, value) ∉ rest := fun member =>
          apart (List.mem_map.mpr ⟨_, member, rfl⟩)
        simp [get?, missing, eq_comm]
      · have further : get? ((firstName, firstValue) :: rest) name = get? rest name := by
          simp [get?, same]
        rw [further, ih distinct, List.mem_cons]
        simp [Ne.symm same]

end Json.Members

namespace Descriptor

/-- The value of a parameter that is not left out. -/
def given? (descriptor : Descriptor) (name : String) : Option Json.Value :=
  (descriptor.param? name).filter fun value => !value.isNull

/-- The names of the parameters of a built-in kind. -/
def knownNames? : String → Option (List String)
  | "delay" => some ["seconds"]
  | "set" => some ["channel", "value", "wait", "readback", "tolerance", "timeout"]
  | "wait" => some ["channel", "comparison", "value", "tolerance", "timeout"]
  | "comment" => some ["text"]
  | "loop" =>
      some ["channel", "start", "end", "step", "wait", "readback", "tolerance", "timeout"]
  | "group" => some []
  | _ => none

/-- Whether all parameters have names that their kind knows. -/
def KnowsNames (kind : String) (params : Json.Members) : Prop :=
  ∀ known, knownNames? kind = some known → ∀ name ∈ params.names, name ∈ known

mutual

/-- Whether two trees of the same shape differ in nothing but the order of parameters and in
parameters that are null, none of them under an unknown name. -/
inductive Restates : Descriptor → Descriptor → Prop
  | node {kind : String} {label : Option String} {params otherParams : Json.Members}
      {body otherBody : List Descriptor} (known : KnowsNames kind params)
      (otherKnown : KnowsNames kind otherParams) (restates : params.Restates otherParams)
      (bodies : RestateAll body otherBody) :
      Restates ⟨kind, label, params, body⟩ ⟨kind, label, otherParams, otherBody⟩

/-- The same of trees in order. -/
inductive RestateAll : List Descriptor → List Descriptor → Prop
  | nil : RestateAll [] []
  | cons {descriptor other : Descriptor} {rest others : List Descriptor}
      (first : Restates descriptor other) (behind : RestateAll rest others) :
      RestateAll (descriptor :: rest) (other :: others)

end

mutual

theorem Restates.symm : {descriptor other : Descriptor} → descriptor.Restates other →
    other.Restates descriptor
  | _, _, .node known otherKnown restates bodies =>
      .node otherKnown known restates.symm bodies.symm

theorem RestateAll.symm : {descriptors others : List Descriptor} →
    RestateAll descriptors others → RestateAll others descriptors
  | _, _, .nil => .nil
  | _, _, .cons first behind => .cons first.symm behind.symm

end

/-! ## Readers -/

section Readers

variable {α : Type} [Scalar α] {descriptor other : Descriptor} {known : List String}

theorem given?_eq_some_iff (distinct : descriptor.params.names.Nodup) {name : String}
    {value : Json.Value} :
    descriptor.given? name = some value ↔ (name, value) ∈ descriptor.params.given := by
  rw [given?, Option.filter_eq_some_iff, param?, Json.Members.get?_eq_some_iff distinct,
    Json.Members.given, List.mem_filter]

/-- Whether the readers of a kind that knows some names can tell two descriptors apart. -/
structure ReadsAs (known : List String) (descriptor other : Descriptor) : Prop where
  label : descriptor.label = other.label
  requireNames : descriptor.requireNames known = other.requireNames known
  requireNoBody : descriptor.requireNoBody = other.requireNoBody
  given : ∀ name, descriptor.given? name = other.given? name

theorem Restates.readsAs (restates : descriptor.Restates other)
    (knows : knownNames? descriptor.kind = some known) : ReadsAs known descriptor other := by
  obtain ⟨named, otherNamed, restates, bodies⟩ := restates
  refine ⟨rfl, ?_, ?_, fun name => Option.ext fun value => ?_⟩
  · have accepted : ∀ {descriptor : Descriptor}, (∀ name ∈ descriptor.params.names, name ∈ known) →
        descriptor.requireNames known = .ok () := fun all => requireNames_eq_ok.mpr all
    exact (accepted (named known knows)).trans (accepted (otherNamed known knows)).symm
  · cases bodies <;> rfl
  · rw [given?_eq_some_iff restates.distinct, given?_eq_some_iff restates.otherDistinct]
    exact restates.given.mem_iff

/-! Each reader of a parameter depends on what is given only. -/

theorem number?_eq (name : String) : descriptor.number? (α := α) name =
    match descriptor.given? name with
    | none => .ok none
    | some (.number found) =>
        if found.toFloat.isFinite then .ok (some (Scalar.ofFloat found.toFloat))
        else .error (.notFinite name)
    | some found => .error (.notNumber name found) := by
  rw [number?, given?]
  cases descriptor.param? name with
  | none => rfl
  | some value => cases value <;> rfl

theorem text?_eq (name : String) : descriptor.text? name =
    match descriptor.given? name with
    | none => .ok none
    | some (.string found) =>
        if Text.isAllBlank found then .error (.empty name) else .ok (some found)
    | some found => .error (.notText name found) := by
  rw [text?, given?]
  cases descriptor.param? name with
  | none => rfl
  | some value => cases value <;> rfl

theorem flag_eq (name : String) (default : Bool) : descriptor.flag name default =
    match descriptor.given? name with
    | none => .ok default
    | some (.bool found) => .ok found
    | some found => .error (.notFlag name found) := by
  rw [flag, given?]
  cases descriptor.param? name with
  | none => rfl
  | some value => cases value <;> rfl

theorem quantity_eq (name : String) : descriptor.quantity (α := α) name =
    match descriptor.given? name with
    | some (.string found) =>
        match finiteLiteral? found with
        | some value => .ok (.literal (Scalar.ofFloat value))
        | none =>
            if Text.isAllBlank found then .error (.empty name) else .ok (.expression found)
    | _ => (descriptor.number name).map .literal := by
  rw [quantity, given?]
  cases descriptor.param? name with
  | none => rfl
  | some value => cases value <;> rfl

namespace ReadsAs

variable (reads : ReadsAs known descriptor other) (name : String)
include reads

theorem number? : descriptor.number? (α := α) name = other.number? name := by
  rw [number?_eq, number?_eq, reads.given]

theorem number : descriptor.number (α := α) name = other.number name := by
  rw [Descriptor.number, Descriptor.number, reads.number?]

theorem nonNegative? : descriptor.nonNegative? (α := α) name = other.nonNegative? name := by
  rw [Descriptor.nonNegative?, Descriptor.nonNegative?, reads.number?]

theorem duration : descriptor.duration α name = other.duration α name := by
  rw [Descriptor.duration, Descriptor.duration, reads.nonNegative?]

theorem timeout? : descriptor.timeout? α name = other.timeout? α name := by
  rw [Descriptor.timeout?, Descriptor.timeout?, reads.duration]

theorem text? : descriptor.text? name = other.text? name := by
  rw [text?_eq, text?_eq, reads.given]

theorem text : descriptor.text name = other.text name := by
  rw [Descriptor.text, Descriptor.text, reads.text?]

theorem flag (default : Bool) : descriptor.flag name default = other.flag name default := by
  rw [flag_eq, flag_eq, reads.given]

theorem quantity : descriptor.quantity (α := α) name = other.quantity name := by
  rw [quantity_eq, quantity_eq, reads.given, reads.number]

end ReadsAs

end Readers

end Descriptor

/-! ## Kinds -/

namespace Command

section Kinds

open Descriptor (ReadsAs)

variable {α : Type} [Scalar α] {descriptor other : Descriptor} {known : List String}

theorem completion_eq (reads : ReadsAs known descriptor other) (channel : String) :
    (Completion.ofDescriptor descriptor channel : Except Defect (Completion α)) =
      Completion.ofDescriptor other channel := by
  simp only [Completion.ofDescriptor, reads.flag, reads.text?, reads.nonNegative?, reads.timeout?]

theorem delayOf_eq (reads : ReadsAs ["seconds"] descriptor other) :
    (delayOf descriptor : Except Defect (Command α)) = delayOf other := by
  simp only [delayOf, reads.requireNames, reads.requireNoBody, reads.number, reads.duration,
    reads.label]

theorem setOf_eq
    (reads : ReadsAs ["channel", "value", "wait", "readback", "tolerance", "timeout"] descriptor
      other) :
    (setOf descriptor : Except Defect (Command α)) = setOf other := by
  simp only [setOf, reads.requireNames, reads.requireNoBody, reads.text, reads.quantity,
    completion_eq reads, reads.label]

theorem waitOf_eq
    (reads : ReadsAs ["channel", "comparison", "value", "tolerance", "timeout"] descriptor
      other) :
    (waitOf descriptor : Except Defect (Command α)) = waitOf other := by
  simp only [waitOf, comparisonOf, reads.requireNames, reads.requireNoBody, reads.text, reads.text?,
    reads.quantity, reads.nonNegative?, reads.timeout?, reads.label]

omit [Scalar α] in
theorem commentOf_eq (reads : ReadsAs ["text"] descriptor other) :
    (commentOf descriptor : Except Defect (Command α)) = commentOf other := by
  simp only [commentOf, reads.requireNames, reads.requireNoBody, reads.text, reads.label]

theorem sweepOf_eq
    (reads : ReadsAs ["channel", "start", "end", "step", "wait", "readback", "tolerance",
      "timeout"] descriptor other) :
    (sweepOf descriptor : Except Defect (Sweep α)) = sweepOf other := by
  simp only [sweepOf, reads.requireNames, reads.text, reads.number, completion_eq reads]

theorem loopOf_eq (reads : ReadsAs known descriptor other) (sweep : Sweep α)
    (body : List (Command α)) : loopOf descriptor sweep body = loopOf other sweep body := by
  rw [loopOf, loopOf, reads.label]

omit [Scalar α] in
theorem groupOf_eq (reads : ReadsAs known descriptor other) (children : List (Command α)) :
    groupOf descriptor children = groupOf other children := by
  rw [groupOf, groupOf, reads.label]

end Kinds

/-! ## Trees -/

section Trees

open Descriptor (Restates RestateAll)

variable {α : Type} [Scalar α]

mutual

/-- Trees that say the same are compiled into the same command, or refused for the same reason. -/
theorem compile_eq : {descriptor other : Descriptor} → descriptor.Restates other →
    (compile descriptor : Except ScanError (Command α)) = compile other
  | _, _, restates@(.node _ _ _ bodies) => by
      rw [compile, compile]
      split_ifs with delay set wait comment loop group
      · cases eq_of_beq delay
        rw [delayOf_eq (restates.readsAs rfl)]
      · cases eq_of_beq set
        rw [setOf_eq (restates.readsAs rfl)]
      · cases eq_of_beq wait
        rw [waitOf_eq (restates.readsAs rfl)]
      · cases eq_of_beq comment
        rw [commentOf_eq (restates.readsAs rfl)]
      · cases eq_of_beq loop
        simp only [sweepOf_eq (restates.readsAs rfl), compileAll_eq bodies,
          loopOf_eq (restates.readsAs rfl)]
      · cases eq_of_beq group
        simp only [(restates.readsAs rfl).requireNames, compileAll_eq bodies,
          groupOf_eq (restates.readsAs rfl)]
      · rfl

/-- The same of trees in order. -/
theorem compileAll_eq : {descriptors others : List Descriptor} → RestateAll descriptors others →
    (compileAll descriptors : Except ScanError (List (Command α))) = compileAll others
  | _, _, .nil => rfl
  | _, _, .cons first behind => by
      rw [compileAll, compileAll, compile_eq first, compileAll_eq behind]

end

end Trees

end Command

/-! ## Bodies of loops -/

namespace Descriptor

theorem Restates.exists_of_mem {descriptors others : List Descriptor} {descriptor : Descriptor}
    (restate : RestateAll descriptors others) (member : descriptor ∈ descriptors) :
    ∃ other ∈ others, descriptor.Restates other := by
  induction descriptors generalizing others with
  | nil => cases member
  | cons first rest ih =>
      obtain - | ⟨same, behind⟩ := restate
      rcases List.mem_cons.mp member with rfl | member
      · exact ⟨_, List.mem_cons_self, same⟩
      · obtain ⟨other, found, restates⟩ := ih behind member
        exact ⟨other, List.mem_cons_of_mem _ found, restates⟩

/-- Trees that say the same do so at every depth. -/
theorem exists_restates_of_within {descriptors others : List Descriptor} {descriptor : Descriptor}
    (restate : RestateAll descriptors others) (within : descriptor.Within descriptors) :
    ∃ other, other.Within others ∧ descriptor.Restates other := by
  induction within with
  | top member =>
      obtain ⟨other, found, restates⟩ := Restates.exists_of_mem restate member
      exact ⟨other, .top found, restates⟩
  | nested _ member ih =>
      obtain ⟨_, within, -, -, -, bodies⟩ := ih
      obtain ⟨other, found, restates⟩ := Restates.exists_of_mem bodies member
      exact ⟨other, .nested within found, restates⟩

end Descriptor

theorem Command.areBodyFrom_of_restateAll {α : Type} [Scalar α]
    {descriptors others : List Descriptor} (restate : Descriptor.RestateAll descriptors others)
    {body : List (Command α)} (origin : AreBodyFrom descriptors body) :
    AreBodyFrom others body := by
  obtain ⟨descriptor, within, isLoop, compiled⟩ := origin
  obtain ⟨other, within, restates⟩ := Descriptor.exists_restates_of_within restate within
  obtain ⟨-, -, -, bodies⟩ := restates
  exact ⟨_, within, isLoop, (compileAll_eq bodies).symm.trans compiled⟩

/-! ## Runs -/

/-- The sequencer with descriptors that say the same as its own. -/
def Sequencer.retold {α : Type} (sequencer : Sequencer α) (descriptors : List Descriptor) :
    Sequencer α :=
  { sequencer with sequence := { sequencer.sequence with steps := descriptors } }

/-- The scene around a sequencer with descriptors that say the same. -/
def Scene.retold {α : Type} (scene : Scene α) (descriptors : List Descriptor) : Scene α :=
  { scene with sequencer := scene.sequencer.retold descriptors }

/-- The turn in a scene with descriptors that say the same. -/
def Turn.retold {α : Type} (turn : Turn α) (descriptors : List Descriptor) : Turn α :=
  { turn with scene := turn.scene.retold descriptors }

section Runs

variable {α : Type} [Scalar α] {descriptors : List Descriptor}

theorem Sequencer.ofSequence_retold (sequence : Sequence)
    (restate : Descriptor.RestateAll sequence.steps descriptors)
    (pollInterval : Duration) :
    (ofSequence { sequence with steps := descriptors } pollInterval :
        Except ScanError (Sequencer α)) =
      (ofSequence sequence pollInterval).map (·.retold descriptors) := by
  rw [ofSequence, ofSequence, Command.compileAll_eq restate]
  cases (Command.compileAll descriptors : Except ScanError (List (Command α))) with
  | error error => rfl
  | ok steps =>
      cases summed : Command.totalWork? steps <;>
        simp [summed, Except.map, bind, Except.bind, pure, Except.pure, retold, throw, throwThe,
          MonadExceptOf.throw]

theorem Sequencer.simulate_retold (sequencer : Sequencer α) (descriptors : List Descriptor)
    (profile : Profile α) (evaluate : String → Except EvalError α) (runId : String) :
    (sequencer.retold descriptors).simulate profile evaluate runId =
      ((sequencer.simulate profile evaluate runId).1,
        (sequencer.simulate profile evaluate runId).2.retold descriptors) := by
  cases taken : sequencer.isTaken with
  | true =>
      have other : (sequencer.retold descriptors).isTaken = true := taken
      simp only [simulate, beginSimulation, taken, other, if_true]
  | false =>
      have other : (sequencer.retold descriptors).isTaken = false := taken
      simp only [simulate, beginSimulation, taken, other]
      rfl

namespace Scene

variable {scene start last : Scene α} {turns : List (Turn α)}

/-- No act depends on the descriptors that were compiled. -/
theorem act?_retold (scene : Scene α) (descriptors : List Descriptor) (act : Act α) :
    (scene.retold descriptors).act? act = (scene.act? act).map (·.retold descriptors) := by
  cases act with
  | execute runId =>
      cases taken : scene.sequencer.isTaken with
      | true =>
          have other : (scene.retold descriptors).sequencer.isTaken = true := taken
          simp only [act?, Sequencer.beginRun, taken, other, if_true, Option.map_some]
      | false =>
          have other : (scene.retold descriptors).sequencer.isTaken = false := taken
          simp only [act?, Sequencer.beginRun, taken, other]
          rfl
  | work run reply =>
      have same : (scene.retold descriptors).workers = scene.workers := rfl
      simp only [act?, same]
      cases scene.workers[run]? with
      | none => rfl
      | some worker =>
          have board : (scene.retold descriptors).board = scene.board := rfl
          simp only [board, Option.map_map]
          rfl
  | invoke call =>
      simp only [act?]
      split <;> rfl
  | access position now =>
      have same : (scene.retold descriptors).calls = scene.calls := rfl
      simp only [act?, same]
      cases scene.calls[position]? with
      | none => rfl
      | some call =>
          have board : (scene.retold descriptors).board = scene.board := rfl
          have work : (scene.retold descriptors).sequencer.totalWork =
            scene.sequencer.totalWork := rfl
          simp only [board, work]
          obtain ⟨after, next | result⟩ := call.step scene.sequencer.totalWork now scene.board
          · rfl
          · rfl
  | simulate =>
      cases taken : scene.sequencer.isTaken with
      | true =>
          have other : (scene.retold descriptors).sequencer.isTaken = true := taken
          simp only [act?, Sequencer.beginSimulation, taken, other, if_true, Option.map_some]
      | false =>
          have other : (scene.retold descriptors).sequencer.isTaken = false := taken
          simp only [act?, Sequencer.beginSimulation, taken, other]
          rfl
  | conclude result =>
      have same : (scene.retold descriptors).passes = scene.passes := rfl
      simp only [act?, same]
      split <;> rfl
  | subscribe => rfl
  | unsubscribe id => rfl
  | collect id => rfl

/-- What happens around a sequencer happens around one whose descriptors say the same. -/
theorem plays_retold_iff {turns : List (Turn α)} {last : Scene α} :
    (start.retold descriptors).Plays turns last ↔ ∃ own final, start.Plays own final ∧
      turns = own.map (·.retold descriptors) ∧ last = final.retold descriptors := by
  constructor
  · intro plays
    induction plays with
    | begin => exact ⟨[], start, .begin, rfl, rfl⟩
    | turn _ acted ih =>
        obtain ⟨own, final, plays, rfl, rfl⟩ := ih
        rw [act?_retold, Option.map_eq_some_iff] at acted
        obtain ⟨next, acted, rfl⟩ := acted
        exact ⟨_, next, plays.turn acted, by simp [Turn.retold], rfl⟩
  · rintro ⟨own, final, plays, rfl, rfl⟩
    induction plays with
    | begin => exact .begin
    | turn _ acted ih =>
        rw [List.map_append]
        refine ih.turn ?_
        rw [act?_retold, acted]
        rfl

end Scene

/-- A dry run that compiles anew at every level does not depend on how the parameters are written
down either. -/
theorem Sequence.simulate_retold {m : Type → Type} [Monad m] (sequence : Sequence)
    (restate : Descriptor.RestateAll sequence.steps descriptors) (runner : DryRunner m α) :
    Sequence.simulate runner { sequence with steps := descriptors } = sequence.simulate runner := by
  have same : (Command.compileAll sequence.steps : Except ScanError (List (Command α))) =
    Command.compileAll descriptors := Command.compileAll_eq restate
  cases compiled : (Command.compileAll descriptors : Except ScanError (List (Command α))) with
  | error error => rw [Sequence.simulate, Sequence.simulate, same, compiled]
  | ok commands =>
      have other :
          Command.compileAll { sequence with steps := descriptors }.steps = .ok commands :=
        compiled
      rw [Sequence.simulate_eq runner other, Sequence.simulate_eq runner (same.trans compiled)]

theorem Command.forall₂_compile_of_restateAll {others : List Descriptor}
    (restate : Descriptor.RestateAll descriptors others) :
    List.Forall₂ (fun descriptor other =>
      (compile descriptor : Except ScanError (Command α)) = compile other) descriptors others := by
  induction descriptors generalizing others with
  | nil =>
      cases restate
      exact .nil
  | cons descriptor rest ih =>
      cases restate with
      | cons first behind => exact .cons (compile_eq first) (ih behind)

/-- Trees of the same shape that differ only in the order of their parameters and in parameters that
are null, none of them under an unknown name. Each is compiled into the same command as the other or
refused with the same error. As a sequence they have the same dry run, though it compiles everything
anew and the body of a loop for every value; at every depth the bodies of their loops are compiled
into the same steps; and they are both refused for the same reason or make sequencers with the same
steps and the same work, whose dry runs have the same results and around which just the same can
happen. -/
theorem restated_descriptors_act_alike {descriptors others : List Descriptor}
    (restate : Descriptor.RestateAll descriptors others) (name : Option String)
    (pollInterval : Duration) :
    let sequence : Sequence := { name, steps := descriptors }
    let other : Sequence := { name, steps := others }
    List.Forall₂ (fun descriptor other =>
        (Command.compile descriptor : Except ScanError (Command α)) = Command.compile other)
          descriptors others ∧
      (∀ (m : Type → Type) [Monad m] (runner : DryRunner m α),
        other.simulate runner = sequence.simulate runner) ∧
      (∀ body : List (Command α),
        Command.AreBodyFrom descriptors body ↔ Command.AreBodyFrom others body) ∧
      (Sequencer.ofSequence other pollInterval : Except ScanError (Sequencer α)) =
        (Sequencer.ofSequence sequence pollInterval).map (·.retold others) ∧
      ∀ sequencer : Sequencer α, Sequencer.ofSequence sequence pollInterval = .ok sequencer →
        (∀ profile evaluate runId,
          ((sequencer.retold others).simulate profile evaluate runId).1 =
            (sequencer.simulate profile evaluate runId).1) ∧
        ∀ turns last, (sequencer.retold others).scene.Plays turns last ↔
          ∃ own final, sequencer.scene.Plays own final ∧ turns = own.map (·.retold others) ∧
            last = final.retold others := by
  intro sequence other
  refine ⟨Command.forall₂_compile_of_restateAll restate, ?_, ?_, ?_, ?_⟩
  · intro m _ runner
    exact Sequence.simulate_retold sequence restate runner
  · exact fun body => ⟨Command.areBodyFrom_of_restateAll restate,
      Command.areBodyFrom_of_restateAll restate.symm⟩
  · exact Sequencer.ofSequence_retold sequence restate pollInterval
  · intro sequencer _
    have around : (sequencer.retold others).scene = sequencer.scene.retold others := rfl
    refine ⟨fun profile evaluate runId => ?_, fun turns last => ?_⟩
    · rw [Sequencer.simulate_retold]
    · rw [around]
      exact Scene.plays_retold_iff

/-- A loop over a write, once with what is left out as null and with all parameters in another
order. -/
theorem reversed_loop_acts_alike :
    let write : Descriptor := { kind := "set", params := [("channel", .string "magnet"),
      ("value", .string "start + 1"), ("wait", .bool false)] }
    let reversed : Descriptor := { kind := "set", params := [("timeout", .null),
      ("wait", .bool false), ("value", .string "start + 1"), ("channel", .string "magnet")] }
    let sweep : Json.Members := [("channel", .string "motor"), ("start", .nat 0), ("end", .nat 2),
      ("step", .nat 1)]
    let loop : Descriptor := { kind := "loop", params := sweep, body := [write] }
    let other : Descriptor :=
      { kind := "loop", params := ("readback", .null) :: sweep.reverse, body := [reversed] }
    ∃ command : Command Float, Command.compile loop = .ok command ∧
      Command.compile other = .ok command := by
  intro write reversed sweep loop other
  have writes : write.Restates reversed :=
    .node (by simp [Descriptor.KnowsNames, Descriptor.knownNames?, Json.Members.names])
      (by simp [Descriptor.KnowsNames, Descriptor.knownNames?, Json.Members.names])
      ⟨by decide, by decide, (List.reverse_perm _).symm⟩ .nil
  have loops : loop.Restates other :=
    .node (by simp [Descriptor.KnowsNames, Descriptor.knownNames?, Json.Members.names, sweep])
      (by simp [Descriptor.KnowsNames, Descriptor.knownNames?, Json.Members.names, sweep])
      ⟨by decide, by decide, (List.reverse_perm _).symm⟩ (.cons writes .nil)
  obtain ⟨alike, -⟩ := restated_descriptors_act_alike (α := Float) (.cons loops .nil) none ⟨0⟩
  have accepted : (Command.compile loop : Except ScanError (Command Float)).isOk = true := by
    decide +kernel
  cases compiled : (Command.compile loop : Except ScanError (Command Float)) with
  | error error =>
      rw [compiled] at accepted
      cases accepted
  | ok command =>
      cases alike with
      | cons same _ => exact ⟨command, rfl, same.symm.trans compiled⟩

end Runs

end Scan
