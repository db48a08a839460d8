import Mathlib.Data.List.Forall2
import Scan.Proofs.Scene

/-!
# What a sequence is compiled to

A sequence that compiles does so at every depth: the body of each of its loops, compiled by itself,
gives just the steps that a run makes for every value of the loop.
-/

namespace Scan

variable {α : Type}

/-- A descriptor of a sequence, or one that is nested in it at some depth. -/
inductive Descriptor.Within (descriptors : List Descriptor) : Descriptor → Prop where
  | top {descriptor : Descriptor} (member : descriptor ∈ descriptors) :
      Within descriptors descriptor
  | nested {outer descriptor : Descriptor} (within : Within descriptors outer)
      (member : descriptor ∈ outer.body) : Within descriptors descriptor

namespace Command

section Compilation

variable [Scalar α] {descriptors : List Descriptor} {commands body : List (Command α)}
variable {descriptor : Descriptor} {command : Command α}

/-- Descriptors in order are compiled into as many commands, each into its own. -/
theorem forall₂_of_compileAll (compiled : compileAll descriptors = .ok commands) :
    List.Forall₂ (fun descriptor command => compile descriptor = .ok command) descriptors
      commands := by
  induction descriptors generalizing commands with
  | nil =>
      rw [compileAll] at compiled
      cases compiled
      exact .nil
  | cons descriptor rest ih =>
      rw [compileAll] at compiled
      obtain ⟨command, compiledFirst, compiled⟩ := bind_eq_ok.mp compiled
      obtain ⟨others, compiledRest, made⟩ := bind_eq_ok.mp compiled
      cases made
      exact .cons compiledFirst (ih compiledRest)

theorem length_of_compileAll (compiled : compileAll descriptors = .ok commands) :
    commands.length = descriptors.length :=
  (forall₂_of_compileAll compiled).length_eq.symm

/-- Each command is compiled from one of the descriptors. -/
theorem exists_of_mem_compileAll (compiled : compileAll descriptors = .ok commands)
    (member : command ∈ commands) :
    ∃ descriptor ∈ descriptors, compile descriptor = .ok command := by
  have pairs := forall₂_of_compileAll compiled
  clear compiled
  induction pairs with
  | nil => cases member
  | cons own _ ih =>
      rcases List.mem_cons.mp member with rfl | member
      · exact ⟨_, List.mem_cons_self, own⟩
      · obtain ⟨descriptor, found, compiled⟩ := ih member
        exact ⟨descriptor, List.mem_cons_of_mem _ found, compiled⟩

/-- Each descriptor is compiled into one of the commands. -/
theorem exists_compile_of_mem (compiled : compileAll descriptors = .ok commands)
    (member : descriptor ∈ descriptors) :
    ∃ command ∈ commands, compile descriptor = .ok command := by
  have pairs := forall₂_of_compileAll compiled
  clear compiled
  induction pairs with
  | nil => cases member
  | cons own _ ih =>
      rcases List.mem_cons.mp member with rfl | member
      · exact ⟨_, List.mem_cons_self, own⟩
      · obtain ⟨command, found, compiled⟩ := ih member
        exact ⟨command, List.mem_cons_of_mem _ found, compiled⟩

omit [Scalar α] in
theorem body_of_requireNoBody {done : Unit} (read : descriptor.requireNoBody = .ok done) :
    descriptor.body = [] := by
  rw [Descriptor.requireNoBody] at read
  split at read
  · rename_i empty
    exact List.isEmpty_iff.mp empty
  · cases read

/-- A step that is neither a loop nor a group has no body. -/
theorem body_of_compile_leaf (noLoop : descriptor.kind ≠ "loop")
    (noGroup : descriptor.kind ≠ "group") (compiled : compile descriptor = .ok command) :
    descriptor.body = [] := by
  rcases compile_leaf_eq_ok noLoop noGroup compiled with read | read | read | read
  · simp only [delayOf, bind_eq_ok] at read
    obtain ⟨_, _, _, noBody, _⟩ := read
    exact body_of_requireNoBody noBody
  · simp only [setOf, bind_eq_ok] at read
    obtain ⟨_, _, _, noBody, _⟩ := read
    exact body_of_requireNoBody noBody
  · simp only [waitOf, bind_eq_ok] at read
    obtain ⟨_, _, _, noBody, _⟩ := read
    exact body_of_requireNoBody noBody
  · simp only [commentOf, bind_eq_ok] at read
    obtain ⟨_, _, _, noBody, _⟩ := read
    exact body_of_requireNoBody noBody

/-- The body of a descriptor that compiles does so by itself. -/
theorem exists_body_of_compile (compiled : compile descriptor = .ok command) :
    ∃ body : List (Command α), compileAll descriptor.body = .ok body := by
  rcases compile_eq_ok compiled with
    ⟨noLoop, noGroup, -⟩ | ⟨-, _, body, -, compiledBody, -⟩ | ⟨-, children, compiledBody, -⟩
  · rw [body_of_compile_leaf noLoop noGroup compiled]
    exact ⟨[], rfl⟩
  · exact ⟨body, compiledBody⟩
  · exact ⟨children, compiledBody⟩

/-- Every descriptor in a sequence that compiles does so at whatever depth it is, and so does its
body. -/
theorem exists_compile_of_within (compiled : compileAll descriptors = .ok commands)
    (within : descriptor.Within descriptors) :
    (∃ command : Command α, compile descriptor = .ok command) ∧
      ∃ body : List (Command α), compileAll descriptor.body = .ok body := by
  induction within with
  | top member =>
      obtain ⟨command, -, own⟩ := exists_compile_of_mem compiled member
      exact ⟨⟨command, own⟩, exists_body_of_compile own⟩
  | nested _ member ih =>
      obtain ⟨-, _, nested⟩ := ih
      obtain ⟨command, -, own⟩ := exists_compile_of_mem nested member
      exact ⟨⟨command, own⟩, exists_body_of_compile own⟩

/-- The body of a compiled loop is what the body of the descriptor compiles to. -/
theorem compileAll_of_compile_loop {description : String} {sweep : Sweep α} {work : UInt64}
    (compiled : compile descriptor = .ok (.loop description sweep body work)) :
    descriptor.kind = "loop" ∧ compileAll descriptor.body = .ok body := by
  rcases compile_eq_ok compiled with
    ⟨-, -, leaf⟩ | ⟨kind, _, _, read, compiledBody, made⟩ | ⟨-, _, -, made⟩
  · cases leaf
  · obtain ⟨-, -, -, counted⟩ := sweepOf_eq_ok read
    obtain ⟨_, _, _, same, -⟩ := loopOf_eq_ok (iterationCount_le counted) made
    cases same
    exact ⟨kind, compiledBody⟩
  · obtain ⟨_, _, same, -⟩ := groupOf_eq_ok made
    cases same

/-- The children of a compiled group are what the body of the descriptor compiles to. -/
theorem compileAll_of_compile_group {description : String} {children : List (Command α)}
    {work : UInt64} (compiled : compile descriptor = .ok (.group description children work)) :
    descriptor.kind = "group" ∧ compileAll descriptor.body = .ok children := by
  rcases compile_eq_ok compiled with
    ⟨-, -, leaf⟩ | ⟨-, _, _, read, -, made⟩ | ⟨kind, _, compiledBody, made⟩
  · cases leaf
  · obtain ⟨-, -, -, counted⟩ := sweepOf_eq_ok read
    obtain ⟨_, _, _, same, -⟩ := loopOf_eq_ok (iterationCount_le counted) made
    cases same
  · obtain ⟨_, _, same, -⟩ := groupOf_eq_ok made
    cases same
    exact ⟨kind, compiledBody⟩

end Compilation

/-! ## The commands of a sequence -/

section Origins

variable [Scalar α] {descriptors : List Descriptor} {commands body children : List (Command α)}

/-- A command that is compiled from a descriptor at some depth of a sequence. -/
def ComesFrom (descriptors : List Descriptor) (command : Command α) : Prop :=
  ∃ descriptor, descriptor.Within descriptors ∧ compile descriptor = .ok command

/-- Steps that the body of a loop at some depth of a sequence compiles to. -/
def AreBodyFrom (descriptors : List Descriptor) (body : List (Command α)) : Prop :=
  ∃ descriptor : Descriptor, descriptor.Within descriptors ∧ descriptor.kind = "loop" ∧
    compileAll descriptor.body = .ok body

/-- What the body of a descriptor compiles to comes from the sequence of the descriptor. -/
theorem comesFrom_of_compileAll {outer : Descriptor} (within : outer.Within descriptors)
    (compiled : compileAll outer.body = .ok commands) :
    ∀ command ∈ commands, command.ComesFrom descriptors := by
  intro command member
  obtain ⟨descriptor, found, own⟩ := exists_of_mem_compileAll compiled member
  exact ⟨descriptor, .nested within found, own⟩

theorem AreBodyFrom.comesFrom (origin : AreBodyFrom descriptors body) :
    ∀ command ∈ body, command.ComesFrom descriptors := by
  obtain ⟨_, within, -, compiled⟩ := origin
  exact comesFrom_of_compileAll within compiled

theorem ComesFrom.loop {description : String} {sweep : Sweep α} {work : UInt64}
    (origin : (Command.loop description sweep body work).ComesFrom descriptors) :
    AreBodyFrom descriptors body := by
  obtain ⟨descriptor, within, compiled⟩ := origin
  obtain ⟨kind, compiledBody⟩ := compileAll_of_compile_loop compiled
  exact ⟨descriptor, within, kind, compiledBody⟩

theorem ComesFrom.group {description : String} {work : UInt64}
    (origin : (Command.group description children work).ComesFrom descriptors) :
    ∀ command ∈ children, command.ComesFrom descriptors := by
  obtain ⟨descriptor, within, compiled⟩ := origin
  exact comesFrom_of_compileAll within (compileAll_of_compile_group compiled).2

end Origins

end Command

/-! ## The tasks of a run -/

/-- Whether the commands of a task come from a sequence, and the steps of a pass through a loop from
the body of one. -/
def Task.ComesFrom [Scalar α] (descriptors : List Descriptor) : Task α → Prop
  | .announceStart _ _ command | .start _ command | .enter _ command =>
      command.ComesFrom descriptors
  | .iterate _ _ body _ | .nest body => Command.AreBodyFrom descriptors body
  | .prepare commands => ∀ command ∈ commands, command.ComesFrom descriptors
  | .steps _ remaining => ∀ command ∈ remaining.map Prod.snd, command.ComesFrom descriptors
  | _ => True

section Tasks

variable [Scalar α] {descriptors : List Descriptor} {board after : Board} {worker : Worker α}
variable {task : Task α} {more : List (Task α)} {reply : Option (Reply α)}

theorem Task.comesFrom_of_isErrand (errand : task.isErrand = true) :
    task.ComesFrom descriptors := by
  cases task <;> trivial

theorem Worker.comesFrom_nestedTasks {commands : List (Nat × Command α)}
    (origin : ∀ command ∈ commands.map Prod.snd, command.ComesFrom descriptors) :
    ∀ task ∈ nestedTasks commands, task.ComesFrom descriptors := by
  induction commands with
  | nil => exact List.forall_mem_nil _
  | cons pair rest ih =>
      obtain ⟨id, command⟩ := pair
      obtain ⟨own, behind⟩ := List.forall_mem_cons.mp origin
      rw [nestedTasks_cons]
      exact List.forall_mem_cons.mpr ⟨trivial, List.forall_mem_cons.mpr ⟨own, ih behind⟩⟩

theorem Worker.comesFrom_commandTasks {id : Nat} {command : Command α}
    (origin : command.ComesFrom descriptors) :
    ∀ task ∈ commandTasks id command, task.ComesFrom descriptors := by
  cases command with
  | loop _ sweep body _ => simpa [commandTasks, Task.ComesFrom] using origin.loop
  | group _ children _ =>
      apply comesFrom_nestedTasks
      rw [Board.map_snd_numbered]
      exact origin.group
  | delay | set | wait | comment => simp [commandTasks, Task.ComesFrom]

/-- A task that comes from a sequence leads to others that do. -/
theorem Task.comesFrom_of_spawns (origin : task.ComesFrom descriptors)
    (spawns : task.Spawns board worker reply after more) :
    ∀ other ∈ more, other.ComesFrom descriptors := by
  cases errand : task.isErrand
  case true =>
    intro other member
    exact Task.comesFrom_of_isErrand (Task.isErrand_of_spawns errand spawns other member)
  cases spawns with
  | announceStart | start => simpa [ComesFrom] using origin
  | enter =>
      rw [List.forall_mem_append]
      exact ⟨Worker.comesFrom_commandTasks origin, by simp [ComesFrom]⟩
  | round id sweep body iteration =>
      intro other member
      rw [Worker.iterationTasks, List.mem_append, List.mem_append] at member
      rcases member with (member | member) | member
      · cases List.mem_singleton.mp member
        trivial
      · exact Task.comesFrom_of_isErrand (Worker.isErrand_of_mem_writeTasks member)
      · simp only [List.mem_cons, List.not_mem_nil, or_false] at member
        rcases member with rfl | rfl | rfl
        · trivial
        · exact origin
        · exact origin
  | nest =>
      apply Worker.comesFrom_nestedTasks
      rw [Board.map_snd_numbered]
      exact origin.comesFrom
  | prepare =>
      refine List.forall_mem_cons.mpr ⟨trivial, List.forall_mem_singleton.mpr ?_⟩
      rw [ComesFrom, Board.map_snd_numbered]
      exact origin
  | steps step remaining =>
      cases remaining with
      | nil => exact List.forall_mem_nil _
      | cons pair rest =>
          obtain ⟨own, behind⟩ := List.forall_mem_cons.mp origin
          simp only [Worker.stepTasks, List.forall_mem_cons]
          exact ⟨trivial, trivial, own, trivial, behind, List.forall_mem_nil _⟩
  | countUnit | settleLeaf | report => simp [ComesFrom]
  | _ => first
    | exact absurd errand.symm Bool.false_ne_true
    | exact List.forall_mem_nil _

/-- Whenever a run makes the steps of a loop afresh, the body of the loop compiles to just these. -/
theorem Life.areBodyFrom_of_nest {others : Board → Board → Prop} {now : Board}
    {sequencer : Sequencer α} {runId : String} {current : Worker α} {past : List (Deed α)}
    (life : Life others board (sequencer.worker runId) past now current)
    (compiled : Command.compileAll descriptors = .ok sequencer.steps) {body : List (Command α)}
    (nests : ⟨.nest body, reply⟩ ∈ past) : Command.AreBodyFrom descriptors body := by
  have steps : ∀ command ∈ sequencer.steps, command.ComesFrom descriptors := by
    intro command member
    obtain ⟨descriptor, found, own⟩ := Command.exists_of_mem_compileAll compiled member
    exact ⟨descriptor, .top found, own⟩
  have start : ∀ task ∈ (sequencer.worker runId).agenda, task.ComesFrom descriptors := by
    simpa [Sequencer.worker, Worker.ofSteps, Task.ComesFrom] using steps
  have steady : (sequencer.worker runId).IsSteady := Worker.isSteady_ofSteps
  exact (life.forall_task steady Task.comesFrom_of_spawns start).1 _ nests

end Tasks

end Scan
