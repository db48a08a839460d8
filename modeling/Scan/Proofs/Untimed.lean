import Scan.Proofs.Expansion
import Scan.Proofs.Life

/-!
# Sequences without limits of time

A step whose descriptor gives no timeout is compiled into one that waits as long as it takes, and so
are the steps nested in it.
-/

namespace Scan

variable {α : Type}

namespace Descriptor

mutual

/-- Whether neither a step nor any step nested in it is given a timeout. -/
def isUntimed : Descriptor → Bool
  | ⟨_, _, params, body⟩ => (params.get? "timeout").isNone && areUntimed body

/-- Whether no step at any depth is given a timeout. -/
def areUntimed : List Descriptor → Bool
  | [] => true
  | descriptor :: rest => isUntimed descriptor && areUntimed rest

end

theorem isUntimed_eq_true {descriptor : Descriptor} :
    descriptor.isUntimed = true ↔
      descriptor.param? "timeout" = none ∧ areUntimed descriptor.body = true := by
  obtain ⟨kind, label, params, body⟩ := descriptor
  simp [isUntimed, param?]

end Descriptor

/-- Whether no step of a sequence is given a timeout, at any depth. -/
def Sequence.isUntimed (sequence : Sequence) : Bool :=
  Descriptor.areUntimed sequence.steps

/-- Whether what follows once a quantity has a value has no limit of time. -/
def Purpose.isUntimed : Purpose α → Bool
  | .assign assignment => assignment.completion.timeout.isNone
  | .await condition => condition.timeout.isNone

namespace Command

mutual

/-- Whether neither a step nor any step nested in it has a limit of time. -/
def isUntimed : Command α → Bool
  | .set _ assignment => assignment.completion.timeout.isNone
  | .wait _ condition => condition.timeout.isNone
  | .loop _ sweep body _ => sweep.completion.timeout.isNone && areUntimed body
  | .group _ children _ => areUntimed children
  | .delay .. | .comment .. => true

/-- Whether no step at any depth has a limit of time. -/
def areUntimed : List (Command α) → Bool
  | [] => true
  | command :: rest => isUntimed command && areUntimed rest

end

end Command

variable [Scalar α]

/-- A limit that is absent is none, as long as zero is zero. -/
theorem Descriptor.timeout?_eq_ok {descriptor : Descriptor} {name : String}
    (zero : Scalar.exact (Scalar.zero : α) = some 0) (absent : descriptor.param? name = none) :
    descriptor.timeout? α name = .ok none := by
  have instantly : Duration.ofSeconds? (Scalar.zero : α) = some ⟨0⟩ := by
    simp [Duration.ofSeconds?, zero, Duration.roundToEven]
  simp [timeout?, duration, nonNegative?, number?, absent, bind, Except.bind, pure, Except.pure,
    instantly]

/-- A write whose descriptor gives no timeout has no limit. -/
theorem Completion.timeout_of_ofDescriptor {descriptor : Descriptor} {channel : String}
    {completion : Completion α} (zero : Scalar.exact (Scalar.zero : α) = some 0)
    (absent : descriptor.param? "timeout" = none)
    (read : ofDescriptor descriptor channel = .ok completion) : completion.timeout = none := by
  have unlimited := Descriptor.timeout?_eq_ok zero absent
  simp only [ofDescriptor, bind_eq_ok, pure, Except.pure] at read
  obtain ⟨_, _, _, _, _, _, timeout, limited, made⟩ := read
  cases made
  exact (Except.ok.inj (unlimited.symm.trans limited)).symm

namespace Command

variable {descriptor : Descriptor} {command : Command α}

theorem isUntimed_of_delayOf (read : delayOf descriptor = .ok command) :
    command.isUntimed = true := by
  simp only [delayOf, bind_eq_ok, pure, Except.pure] at read
  obtain ⟨_, _, _, _, _, _, read⟩ := read
  split at read
  · cases read
  · obtain ⟨_, _, made⟩ := bind_eq_ok.mp read
    cases made
    rfl

omit [Scalar α] in
theorem isUntimed_of_commentOf (read : commentOf descriptor = .ok command) :
    command.isUntimed = true := by
  simp only [commentOf, bind_eq_ok, pure, Except.pure] at read
  obtain ⟨_, _, _, _, _, _, made⟩ := read
  cases made
  rfl

theorem isUntimed_of_setOf (zero : Scalar.exact (Scalar.zero : α) = some 0)
    (absent : descriptor.param? "timeout" = none) (read : setOf descriptor = .ok command) :
    command.isUntimed = true := by
  simp only [setOf, bind_eq_ok, pure, Except.pure] at read
  obtain ⟨_, _, _, _, _, _, _, _, completion, completed, made⟩ := read
  cases made
  rw [isUntimed, Completion.timeout_of_ofDescriptor zero absent completed]
  rfl

theorem isUntimed_of_waitOf (zero : Scalar.exact (Scalar.zero : α) = some 0)
    (absent : descriptor.param? "timeout" = none) (read : waitOf descriptor = .ok command) :
    command.isUntimed = true := by
  have unlimited := Descriptor.timeout?_eq_ok zero absent
  simp only [waitOf, bind_eq_ok, pure, Except.pure] at read
  obtain ⟨_, _, _, _, _, _, _, _, _, _, _, _, timeout, limited, made⟩ := read
  cases made
  rw [isUntimed, ← Except.ok.inj (unlimited.symm.trans limited)]
  rfl

/-- A step without nested steps whose descriptor gives no timeout has no limit. -/
theorem isUntimed_of_leaf (zero : Scalar.exact (Scalar.zero : α) = some 0)
    (absent : descriptor.param? "timeout" = none) (noLoop : descriptor.kind ≠ "loop")
    (noGroup : descriptor.kind ≠ "group") (compiled : compile descriptor = .ok command) :
    command.isUntimed = true := by
  rcases compile_leaf_eq_ok noLoop noGroup compiled with read | read | read | read
  · exact isUntimed_of_delayOf read
  · exact isUntimed_of_setOf zero absent read
  · exact isUntimed_of_waitOf zero absent read
  · exact isUntimed_of_commentOf read

mutual

/-- A command whose descriptor gives no timeout at any depth has no limit. -/
theorem isUntimed_of_compile (zero : Scalar.exact (Scalar.zero : α) = some 0) :
    (descriptor : Descriptor) → {command : Command α} → compile descriptor = .ok command →
      descriptor.isUntimed = true → command.isUntimed = true
  | ⟨kind, label, params, body⟩, command, compiled, untimed => by
      obtain ⟨absent, nestedUntimed⟩ := Descriptor.isUntimed_eq_true.mp untimed
      rcases compile_eq_ok compiled with
        ⟨noLoop, noGroup, -⟩ | ⟨-, sweep, nested, read, compiledBody, made⟩ |
          ⟨-, nested, compiledBody, made⟩
      · exact isUntimed_of_leaf zero absent noLoop noGroup compiled
      · obtain ⟨-, -, completed, counted⟩ := sweepOf_eq_ok read
        obtain ⟨_, _, _, rfl, -⟩ := loopOf_eq_ok (iterationCount_le counted) made
        rw [isUntimed, Completion.timeout_of_ofDescriptor zero absent completed,
          areUntimed_of_compileAll zero body compiledBody nestedUntimed]
        rfl
      · obtain ⟨_, _, rfl, -⟩ := groupOf_eq_ok made
        exact areUntimed_of_compileAll zero body compiledBody nestedUntimed

/-- Commands whose descriptors give no timeout at any depth have no limit. -/
theorem areUntimed_of_compileAll (zero : Scalar.exact (Scalar.zero : α) = some 0) :
    (descriptors : List Descriptor) → {commands : List (Command α)} →
      compileAll descriptors = .ok commands → Descriptor.areUntimed descriptors = true →
        areUntimed commands = true
  | [], commands, compiled, untimed => by
      rw [compileAll] at compiled
      cases compiled
      rfl
  | descriptor :: rest, commands, compiled, untimed => by
      rw [compileAll] at compiled
      obtain ⟨command, compiledFirst, compiled⟩ := bind_eq_ok.mp compiled
      obtain ⟨others, compiledRest, made⟩ := bind_eq_ok.mp compiled
      cases made
      obtain ⟨first, behind⟩ := Bool.and_eq_true_iff.mp untimed
      exact Bool.and_eq_true_iff.mpr ⟨isUntimed_of_compile zero descriptor compiledFirst first,
        areUntimed_of_compileAll zero rest compiledRest behind⟩

end

end Command

/-! ## Tasks without limits of time -/

/-- Whether a task has no limit of time to heed and looks only at monitors from a number on. -/
def Task.IsUntimedFrom (first : Nat) : Task α → Prop
  | .announceStart _ id command | .start id command | .enter id command =>
      first ≤ id ∧ command.isUntimed = true
  | .resolve id _ purpose => first ≤ id ∧ purpose.isUntimed = true
  | .baseline id condition _ => first ≤ id ∧ condition.timeout = none
  | .armDelay id _ | .heedAbort id _ | .checkDeadline id _ | .restUntil id _ _ | .settle id _
  | .announceFinish _ id => first ≤ id
  | .armPoll poll | .probe poll _ | .restPoll poll _ => first ≤ poll.id ∧ poll.limit = none
  | .checkLimit .. => False
  | .iterate id sweep body _ =>
      first ≤ id ∧ sweep.completion.timeout = none ∧ Command.areUntimed body = true
  | .nest body | .prepare body => Command.areUntimed body = true
  | .steps _ remaining => ∀ pair ∈ remaining, first ≤ pair.1 ∧ pair.2.isUntimed = true
  | _ => True

namespace Worker

/-- Tasks none of which has a limit of time. -/
def AreUntimedFrom (first : Nat) (tasks : List (Task α)) : Prop :=
  ∀ task ∈ tasks, task.IsUntimedFrom first

variable {first id : Nat} {task : Task α} {rest more agenda : List (Task α)}

omit [Scalar α]

@[simp] theorem areUntimedFrom_nil : AreUntimedFrom first ([] : List (Task α)) :=
  List.forall_mem_nil _

@[simp] theorem areUntimedFrom_cons : AreUntimedFrom first (task :: rest) ↔
    task.IsUntimedFrom first ∧ AreUntimedFrom first rest :=
  List.forall_mem_cons

@[simp] theorem areUntimedFrom_append : AreUntimedFrom first (more ++ rest) ↔
    AreUntimedFrom first more ∧ AreUntimedFrom first rest :=
  List.forall_mem_append

theorem AreUntimedFrom.unwind (untimed : AreUntimedFrom first agenda) :
    AreUntimedFrom first (unwind agenda) :=
  fun task member => untimed task ((unwind_suffix agenda).mem member)

theorem areUntimedFrom_pollTasks {poll : Poll α} (beyond : first ≤ poll.id)
    (unlimited : poll.limit = none) : AreUntimedFrom first (pollTasks poll) := by
  simp [pollTasks, Task.IsUntimedFrom, beyond, unlimited]

theorem areUntimedFrom_writeTasks {channel : String} {completion : Completion α} {value : α}
    (beyond : first ≤ id) (unlimited : completion.timeout = none) :
    AreUntimedFrom first (writeTasks id channel completion value) := by
  unfold writeTasks
  split
  · exact areUntimedFrom_cons.mpr ⟨trivial, areUntimedFrom_pollTasks beyond unlimited⟩
  · simp [Task.IsUntimedFrom]

theorem areUntimedFrom_purposeTasks {value : α} {purpose : Purpose α} (beyond : first ≤ id)
    (untimed : purpose.isUntimed = true) :
    AreUntimedFrom first (purposeTasks id value purpose) := by
  cases purpose with
  | assign => exact areUntimedFrom_writeTasks beyond (Option.isNone_iff_eq_none.mp untimed)
  | await condition =>
      have unlimited : condition.timeout = none := Option.isNone_iff_eq_none.mp untimed
      simp only [purposeTasks]
      split
      · simp [Task.IsUntimedFrom, beyond, unlimited]
      · exact areUntimedFrom_pollTasks beyond unlimited

theorem areUntimedFrom_nestedTasks {commands : List (Nat × Command α)}
    (untimed : ∀ pair ∈ commands, first ≤ pair.1 ∧ pair.2.isUntimed = true) :
    AreUntimedFrom first (nestedTasks commands) := by
  induction commands with
  | nil => exact areUntimedFrom_nil
  | cons pair rest ih =>
      obtain ⟨id, command⟩ := pair
      obtain ⟨own, behind⟩ := List.forall_mem_cons.mp untimed
      rw [nestedTasks_cons, areUntimedFrom_cons, areUntimedFrom_cons]
      exact ⟨trivial, own, ih behind⟩

end Worker

omit [Scalar α] in
/-- The monitors of numbered commands count from where the numbers begin. -/
theorem Board.untimed_numbered {first id : Nat} {commands : List (Command α)} (beyond : first ≤ id)
    (untimed : Command.areUntimed commands = true) :
    ∀ pair ∈ Board.numbered id commands, first ≤ pair.1 ∧ pair.2.isUntimed = true := by
  induction commands generalizing id with
  | nil => nofun
  | cons command rest ih =>
      obtain ⟨own, behind⟩ := Bool.and_eq_true_iff.mp untimed
      exact List.forall_mem_cons.mpr
        ⟨⟨beyond, own⟩, ih (Nat.le_trans beyond (Nat.le_add_right id _)) behind⟩

namespace Worker

variable {first id : Nat}

omit [Scalar α] in
theorem areUntimedFrom_commandTasks {command : Command α} (beyond : first ≤ id)
    (untimed : command.isUntimed = true) :
    AreUntimedFrom first (commandTasks id command ++ [Task.settle id command, .leave]) := by
  rw [areUntimedFrom_append]
  refine ⟨?_, by simp [Task.IsUntimedFrom, beyond]⟩
  cases command with
  | group _ children _ =>
      exact areUntimedFrom_nestedTasks
        (Board.untimed_numbered (Nat.le_succ_of_le beyond) untimed)
  | loop _ sweep body _ =>
      obtain ⟨unlimited, nested⟩ := Bool.and_eq_true_iff.mp untimed
      simp [commandTasks, Task.IsUntimedFrom, beyond, nested,
        Option.isNone_iff_eq_none.mp unlimited]
  | set | wait =>
      simp only [commandTasks, areUntimedFrom_cons]
      exact ⟨⟨beyond, untimed⟩, areUntimedFrom_nil⟩
  | delay | comment => simp [commandTasks, Task.IsUntimedFrom, beyond]

end Worker

section Steps

variable {first : Nat} {board after : Board} {worker : Worker α} {task : Task α}
variable {more : List (Task α)} {reply : Option (Reply α)}

/-- A task without a limit of time leads to tasks without one. -/
theorem Task.areUntimedFrom_of_spawns (untimed : task.IsUntimedFrom first)
    (size : first ≤ board.monitors.size) (spawns : task.Spawns board worker reply after more) :
    Worker.AreUntimedFrom first more := by
  cases spawns with
  | announceStart => simpa [IsUntimedFrom, untimed.1] using untimed.2
  | enter => exact Worker.areUntimedFrom_commandTasks untimed.1 untimed.2
  | literal | evaluated => exact Worker.areUntimedFrom_purposeTasks untimed.1 untimed.2
  | baseline => exact Worker.areUntimedFrom_pollTasks untimed.1 untimed.2
  | limited poll _ _ _ _ bounded => simp [untimed.2] at bounded
  | withinLimit => exact untimed.elim
  | round id sweep body iteration =>
      obtain ⟨beyond, unlimited, nested⟩ := untimed
      simp only [Worker.iterationTasks, Worker.areUntimedFrom_append]
      exact ⟨⟨by simp [IsUntimedFrom], Worker.areUntimedFrom_writeTasks beyond unlimited⟩,
        by simp [IsUntimedFrom, beyond, unlimited, nested]⟩
  | nest => exact Worker.areUntimedFrom_nestedTasks (Board.untimed_numbered size untimed)
  | prepare =>
      rw [Worker.areUntimedFrom_cons, Worker.areUntimedFrom_cons]
      exact ⟨trivial, Board.untimed_numbered size untimed, Worker.areUntimedFrom_nil⟩
  | steps step remaining =>
      cases remaining with
      | nil => exact Worker.areUntimedFrom_nil
      | cons pair rest =>
          obtain ⟨own, behind⟩ := List.forall_mem_cons.mp untimed
          simp only [Worker.stepTasks, Worker.areUntimedFrom_cons]
          exact ⟨trivial, trivial, own, trivial, behind, Worker.areUntimedFrom_nil⟩
  | countUnit | settleLeaf | report => simp [IsUntimedFrom]
  | _ => first
    | exact Worker.areUntimedFrom_nil
    | simpa [IsUntimedFrom] using untimed

end Steps

end Scan
