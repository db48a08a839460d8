import Scan.Proofs.Accounts

/-!
# Cues

A run and a dry run have three things in common: both evaluate the expressions of the steps, write
values to channels and count units of work. With an evaluator that is a function of the text these
cues are fixed by the expansion of the steps. A run takes them in order; it stops at the first
expression that has no value, or earlier if something else goes wrong.
-/

namespace Scan

variable {α : Type}

/-- What a run and a dry run do alike. -/
inductive Cue (α : Type) where
  | evaluate (text : String)
  | write (channel : String) (value : α)
  | count

namespace Cue

variable (evaluate : String → Except EvalError α)

/-- Why a cue cannot be taken: the expression has no value. -/
def fault? : Cue α → Option EvalError
  | .evaluate text =>
      match evaluate text with
      | .ok _ => none
      | .error error => some error
  | .write .. | .count => none

/-- The first expression that has no value. -/
def firstFault? (cues : List (Cue α)) : Option EvalError :=
  cues.findSome? (fault? evaluate)

/-- The cues up to the first expression that has no value, and that one. -/
def heeded : List (Cue α) → List (Cue α)
  | [] => []
  | cue :: rest => cue :: if (cue.fault? evaluate).isSome then [] else heeded rest

/-- The write that a cue is. -/
def write? : Cue α → Option (String × α)
  | .write channel value => some (channel, value)
  | _ => none

/-- Whether a cue counts a unit of work. -/
def isCount : Cue α → Bool
  | .count => true
  | _ => false

variable {evaluate} {cue : Cue α} {taken rest cues : List (Cue α)} {error : EvalError}

theorem firstFault?_append :
    firstFault? evaluate (taken ++ rest) =
      (firstFault? evaluate taken).or (firstFault? evaluate rest) :=
  List.findSome?_append

theorem heeded_append_of_none (sound : firstFault? evaluate taken = none) :
    heeded evaluate (taken ++ rest) = taken ++ heeded evaluate rest := by
  induction taken with
  | nil => rfl
  | cons cue taken ih =>
      obtain ⟨own, others⟩ : cue.fault? evaluate = none ∧ firstFault? evaluate taken = none := by
        simpa [firstFault?] using sound
      rw [List.cons_append, heeded, own, ih others]
      rfl

theorem heeded_append_of_some (faulty : firstFault? evaluate taken = some error) :
    heeded evaluate (taken ++ rest) = heeded evaluate taken := by
  induction taken with
  | nil => cases faulty
  | cons cue taken ih =>
      rw [List.cons_append, heeded, heeded]
      cases own : cue.fault? evaluate with
      | some _ => rfl
      | none =>
          rw [firstFault?, List.findSome?_cons, own] at faulty
          simp [ih faulty]

/-- Without a fault every cue is heeded. -/
theorem heeded_of_none (sound : firstFault? evaluate cues = none) :
    heeded evaluate cues = cues := by
  have whole : heeded evaluate (cues ++ []) = cues ++ heeded evaluate [] :=
    heeded_append_of_none sound
  rwa [heeded, List.append_nil] at whole

/-- What is heeded ends with the first fault, if there is one. -/
theorem firstFault?_heeded (cues : List (Cue α)) :
    firstFault? evaluate (heeded evaluate cues) = firstFault? evaluate cues := by
  induction cues with
  | nil => rfl
  | cons cue rest ih =>
      rw [heeded, firstFault?, firstFault?, List.findSome?_cons, List.findSome?_cons]
      cases own : cue.fault? evaluate with
      | some _ => rfl
      | none => exact ih

/-- Cues that come first and of which at most the last one is faulty are heeded. -/
theorem concat_isPrefix_heeded (sound : firstFault? evaluate taken = none)
    (first : taken ++ [cue] <+: cues) : taken ++ [cue] <+: heeded evaluate cues := by
  obtain ⟨rest, rfl⟩ := first
  rw [List.append_assoc, heeded_append_of_none sound, List.singleton_append, heeded]
  exact ⟨_, List.append_assoc ..⟩

/-- The first of the heeded cues have no fault if there is none at all. -/
theorem firstFault?_of_isPrefix (first : taken <+: heeded evaluate cues)
    (sound : firstFault? evaluate cues = none) : firstFault? evaluate taken = none := by
  rw [← firstFault?_heeded] at sound
  obtain ⟨rest, whole⟩ := first
  rw [← whole, firstFault?_append, Option.or_eq_none_iff] at sound
  exact sound.1

/-- Nothing is heeded after a fault. -/
theorem eq_heeded_of_isPrefix (first : taken <+: heeded evaluate cues)
    (faulty : firstFault? evaluate taken = some error) : taken = heeded evaluate cues := by
  induction cues generalizing taken with
  | nil => exact List.prefix_nil.mp first
  | cons cue rest ih =>
      cases taken with
      | nil => cases faulty
      | cons own taken =>
          obtain ⟨rfl, first⟩ := List.cons_prefix_cons.mp first
          rw [heeded]
          cases fault : own.fault? evaluate with
          | some _ =>
              rw [fault] at first
              rw [List.prefix_nil.mp first]
              rfl
          | none =>
              rw [fault] at first
              rw [firstFault?, List.findSome?_cons, fault] at faulty
              exact congrArg (own :: ·) (ih first faulty)

end Cue

/-! ## The cues of units of work -/

/-- The cues that follow once a quantity has a value. -/
def Purpose.cues (value : α) : Purpose α → List (Cue α)
  | .assign assignment => [.write assignment.channel value]
  | .await _ => []

section Evaluation

variable (evaluate : String → Except EvalError α)

/-- The cues of a quantity that is wanted for a purpose. -/
def Quantity.cues (purpose : Purpose α) : Quantity α → List (Cue α)
  | .literal value => purpose.cues value
  | .expression text =>
      .evaluate text :: match evaluate text with
        | .ok value => purpose.cues value
        | .error _ => []

/-- The cues of a unit of work, which is counted last. -/
def WorkUnit.cues [Scalar α] : WorkUnit α → List (Cue α)
  | .value sweep iteration => [.write sweep.channel (sweep.value iteration), .count]
  | .leaf (.set _ assignment) =>
      assignment.value.cues evaluate (.assign assignment) ++ [.count]
  | .leaf (.wait _ condition) => condition.value.cues evaluate (.await condition) ++ [.count]
  | .leaf _ => [.count]

namespace Task

/-- The expression that a task has evaluated. -/
def expression? : Task α → Option String
  | .resolve _ (.expression text) _ => some text
  | _ => none

/-- The cue that a task takes. -/
def cue? : Task α → Option (Cue α)
  | .resolve _ (.expression text) _ => some (.evaluate text)
  | .write channel value => some (.write channel value)
  | .countUnit .. => some .count
  | _ => none

/-- The cues that a task leads to as long as nothing goes wrong. -/
def cues [Scalar α] : Task α → List (Cue α)
  | .resolve _ quantity purpose => quantity.cues evaluate purpose
  | .write channel value => [.write channel value]
  | .settle _ command => if command.isComposite then [] else [.count]
  | .countUnit .. => [.count]
  | task => task.units.flatMap (WorkUnit.cues evaluate)

end Task

/-- A deed in which the reply to an expression, if one is asked for, is that of the evaluator. -/
def Deed.IsEvaluatedBy (deed : Deed α) : Prop :=
  ∀ text ∈ deed.task.expression?, deed.reply = some (.evaluated (evaluate text))

instance [DecidableEq α] (deed : Deed α) : Decidable (deed.IsEvaluatedBy evaluate) :=
  inferInstanceAs (Decidable (∀ text ∈ deed.task.expression?, _))

end Evaluation

namespace Worker

variable [Scalar α] {evaluate : String → Except EvalError α}

theorem flatMap_cues_writeTasks (id : Nat) (channel : String) (completion : Completion α)
    (value : α) :
    (writeTasks id channel completion value).flatMap (Task.cues evaluate) =
      [.write channel value] := by
  unfold writeTasks
  split <;> rfl

theorem flatMap_cues_purposeTasks (id : Nat) (value : α) (purpose : Purpose α) :
    (purposeTasks id value purpose).flatMap (Task.cues evaluate) = purpose.cues value := by
  cases purpose with
  | assign assignment => exact flatMap_cues_writeTasks ..
  | await condition =>
      cases relative : condition.comparison.isRelative <;> simp only [purposeTasks, relative] <;> rfl

theorem flatMap_cues_nestedTasks (commands : List (Nat × Command α)) :
    (nestedTasks commands).flatMap (Task.cues evaluate) =
      (Command.expandAll (commands.map Prod.snd)).flatMap (WorkUnit.cues evaluate) := by
  induction commands with
  | nil => rfl
  | cons pair rest ih =>
      obtain ⟨id, command⟩ := pair
      rw [nestedTasks_cons, List.flatMap_cons, List.flatMap_cons, ih, List.map_cons,
        Command.expandAll, List.flatMap_append]
      rfl

/-- A step leads to the cues of its units, the last of them when it is settled. -/
theorem flatMap_cues_commandTasks (id : Nat) (command : Command α) :
    (commandTasks id command ++ [Task.settle id command, Task.leave]).flatMap
        (Task.cues evaluate) =
      command.expand.flatMap (WorkUnit.cues evaluate) := by
  cases command with
  | group _ children _ =>
      rw [commandTasks, List.flatMap_append, flatMap_cues_nestedTasks, Board.map_snd_numbered]
      exact List.append_nil _
  | loop _ sweep body _ => exact List.append_nil _
  | set _ assignment | wait _ condition =>
      simp [commandTasks, Command.expand, Task.cues, Command.isComposite, WorkUnit.cues, Task.units]
  | delay | comment => rfl

theorem flatMap_cues_iterationTasks (id : Nat) (sweep : Sweep α) (body : List (Command α))
    {iteration : Nat} (more : iteration < sweep.iterations) :
    (iterationTasks id sweep body iteration).flatMap (Task.cues evaluate) =
      (sweep.rounds (Command.expandAll body) iteration).flatMap (WorkUnit.cues evaluate) := by
  rw [iterationTasks, List.flatMap_append, List.flatMap_append, flatMap_cues_writeTasks,
    sweep.rounds_of_lt _ more, List.flatMap_append, List.flatMap_cons]
  simp [Task.cues, Task.units, WorkUnit.cues]

theorem flatMap_cues_stepTasks (step : Nat) (remaining : List (Nat × Command α)) :
    (stepTasks step remaining).flatMap (Task.cues evaluate) =
      (Command.expandAll (remaining.map Prod.snd)).flatMap (WorkUnit.cues evaluate) := by
  cases remaining with
  | nil => rfl
  | cons pair rest => simp [stepTasks, Task.cues, Task.units, Command.expandAll]

end Worker

/-! ## Steps -/

/-- The error of an evaluation, if a run failed with one. -/
def ScanError.evalError? : ScanError → Option EvalError
  | .expression error => some error
  | _ => none

section Steps

variable [Scalar α] {evaluate : String → Except EvalError α} {board after : Board}
variable {worker next : Worker α} {task : Task α} {rest more : List (Task α)}
variable {reply : Option (Reply α)} {error : ScanError}

/-- A task that succeeds leaves to the tasks in its place the cues that it has not taken itself. -/
theorem Task.cues_of_spawns (sound : worker.failure = none)
    (evaluated : Deed.IsEvaluatedBy evaluate ⟨task, reply⟩)
    (spawns : task.Spawns board worker reply after more) :
    task.cues evaluate = task.cue?.toList ++ more.flatMap (Task.cues evaluate) := by
  cases spawns with
  | enter id command => exact (Worker.flatMap_cues_commandTasks id command).symm
  | literal id value purpose => exact (Worker.flatMap_cues_purposeTasks id value purpose).symm
  | baseline => rfl
  | evaluated id text purpose value =>
      have known : evaluate text = .ok value := by
        simpa [Deed.IsEvaluatedBy, Task.expression?, eq_comm] using evaluated
      rw [Worker.flatMap_cues_purposeTasks, Task.cues, Quantity.cues, known]
      rfl
  | round id sweep body iteration more =>
      exact (Worker.flatMap_cues_iterationTasks id sweep body more).symm
  | roundsOver id sweep body iteration ended =>
      rw [Task.cues, Task.units, sweep.rounds_of_le _ (Nat.le_of_not_lt ended)]
      · rfl
      all_goals nofun
  | nest body =>
      rw [Worker.flatMap_cues_nestedTasks, Board.map_snd_numbered]
      rfl
  | steps step remaining => exact (Worker.flatMap_cues_stepTasks step remaining).symm
  | settle id command silent =>
      have composite : command.isComposite = true := by simpa [sound] using silent
      simp [Task.cues, Task.cue?, composite]
  | settleLeaf id command sound leaf => simp [Task.cues, Task.cue?, leaf]
  | _ => simp [Task.cues, Task.cue?, Task.units]

/-- A task that succeeds takes no faulty cue. -/
theorem Task.fault?_of_spawns (evaluated : Deed.IsEvaluatedBy evaluate ⟨task, reply⟩)
    (spawns : task.Spawns board worker reply after more) {cue : Cue α}
    (takes : task.cue? = some cue) : cue.fault? evaluate = none := by
  cases spawns with
  | evaluated id text purpose value =>
      cases takes
      have known : evaluate text = .ok value := by
        simpa [Deed.IsEvaluatedBy, Task.expression?, eq_comm] using evaluated
      simp [Cue.fault?, known]
  | _ => cases takes <;> rfl

omit [Scalar α] in
/-- A cue is to blame for the failure of a task only if it is faulty. -/
theorem Task.fault?_of_fails (evaluated : Deed.IsEvaluatedBy evaluate ⟨task, reply⟩)
    (fails : task.Fails board reply error) :
    (task.cue?.bind fun cue => cue.fault? evaluate) = error.evalError? := by
  cases fails with
  | evaluated id text purpose error =>
      have known : evaluate text = .error error := by
        simpa [Deed.IsEvaluatedBy, Task.expression?, eq_comm] using evaluated
      simp [Task.cue?, Cue.fault?, known, ScanError.evalError?]
  | _ => rfl

/-- A task that fails has taken the first of the cues that it leads to, or none of them. -/
theorem Task.cue?_isPrefix_of_fails (fails : task.Fails board reply error) :
    task.cue?.toList <+: task.cues evaluate := by
  cases fails with
  | evaluated id text purpose error => exact ⟨_, rfl⟩
  | write channel value error => exact List.prefix_rfl
  | _ => exact List.nil_prefix

omit [Scalar α] in
theorem Task.cue?_of_cleansUp (cleans : task.cleansUp = true) : task.cue? = none := by
  cases task <;> first | rfl | exact absurd cleans Bool.false_ne_true

end Steps

/-! ## Lives -/

/-- The cues that a worker has taken, in order. -/
def cuesOf (past : List (Deed α)) : List (Cue α) :=
  past.filterMap fun deed => deed.task.cue?

@[simp] theorem cuesOf_append (first second : List (Deed α)) :
    cuesOf (first ++ second) = cuesOf first ++ cuesOf second :=
  List.filterMap_append

theorem cuesOf_singleton (task : Task α) (reply : Option (Reply α)) :
    cuesOf [⟨task, reply⟩] = task.cue?.toList := by
  rw [cuesOf, List.filterMap_cons]
  cases task.cue? <;> rfl

/-- How the cues that a worker has taken stand to those that it was bound to take. -/
structure Worker.Heeds [Scalar α] (evaluate : String → Except EvalError α) (due : List (Cue α))
    (past : List (Deed α)) (worker : Worker α) : Prop where
  first : cuesOf past <+: Cue.heeded evaluate due
  fault : Cue.firstFault? evaluate (cuesOf past) = worker.failure.bind ScanError.evalError?
  left : worker.failure = none →
    cuesOf past ++ worker.agenda.flatMap (Task.cues evaluate) = due

section Lives

variable [Scalar α] {evaluate : String → Except EvalError α} {board now after : Board}
variable {worker current next : Worker α} {task : Task α} {rest : List (Task α)}
variable {reply : Option (Reply α)} {past : List (Deed α)} {due : List (Cue α)}

/-- A step takes the next cue, or none. -/
theorem Worker.Outcome.heeds (agenda : worker.agenda = task :: rest)
    (outcome : Outcome board worker task rest reply after next)
    (evaluated : Deed.IsEvaluatedBy evaluate ⟨task, reply⟩)
    (heeds : worker.Heeds evaluate due past) :
    next.Heeds evaluate due (past ++ [⟨task, reply⟩]) := by
  have step : cuesOf (past ++ [⟨task, reply⟩]) = cuesOf past ++ task.cue?.toList := by
    rw [cuesOf_append, cuesOf_singleton]
  -- a worker that has not failed takes its next cue from those that are left
  have goesOn : worker.failure = none → task.cue?.toList <+: task.cues evaluate →
      cuesOf past ++ task.cue?.toList <+: Cue.heeded evaluate due := by
    intro sound takes
    have fault := heeds.fault
    have left := heeds.left sound
    rw [sound] at fault
    rw [agenda, List.flatMap_cons] at left
    cases taken : task.cue? with
    | none => simpa using heeds.first
    | some cue =>
        apply Cue.concat_isPrefix_heeded fault
        rw [← left, List.prefix_append_right_inj]
        rw [taken] at takes
        exact takes.trans (List.prefix_append _ _)
  have faultAfter : Cue.firstFault? evaluate (cuesOf past ++ task.cue?.toList) =
      (worker.failure.bind ScanError.evalError?).or
        (task.cue?.bind fun cue => cue.fault? evaluate) := by
    rw [Cue.firstFault?_append, heeds.fault]
    cases task.cue? <;> simp [Cue.firstFault?]
  cases outcome with
  | sound sound spawns =>
      have balance := Task.cues_of_spawns sound evaluated spawns
      refine ⟨?_, ?_, fun _ => ?_⟩
      · rw [step]
        exact goesOn sound ⟨_, balance.symm⟩
      · rw [step, faultAfter]
        cases taken : task.cue? with
        | none => simp
        | some cue => simp [sound, Task.fault?_of_spawns evaluated spawns taken]
      · rw [step, ← heeds.left sound, agenda, List.flatMap_cons, balance]
        simp
  | broken sound fails =>
      refine ⟨?_, ?_, nofun⟩
      · rw [step]
        exact goesOn sound (Task.cue?_isPrefix_of_fails fails)
      · rw [step, faultAfter, Task.fault?_of_fails evaluated fails, sound]
        rfl
  | cleaning failed cleans spawns =>
      rw [Task.cue?_of_cleansUp cleans, Option.toList_none, List.append_nil] at step
      refine ⟨?_, ?_, fun sound => ?_⟩
      · rw [step]
        exact heeds.first
      · rw [step, heeds.fault]
        simp
      · simp_all

/-- A worker whose expressions are evaluated by one evaluator takes its cues in order. -/
theorem Life.heeds {others : Board → Board → Prop}
    (life : Life others board worker past now current) (sound : worker.failure = none)
    (evaluated : ∀ deed ∈ past, deed.IsEvaluatedBy evaluate) :
    current.Heeds evaluate (worker.agenda.flatMap (Task.cues evaluate)) past := by
  have steady : worker.IsSteady := by simp [Worker.IsSteady, sound]
  induction life with
  | begin => exact ⟨List.nil_prefix, by rw [sound]; rfl, fun _ => rfl⟩
  | wait _ _ ih => exact ih evaluated
  | work life agenda stepped ih =>
      have before := ih fun deed member => evaluated deed (List.mem_append_left _ member)
      have own := evaluated _ (List.mem_append_right _ (List.mem_singleton.mpr rfl))
      exact (Worker.outcome_of_step? (life.isSteady steady) agenda stepped).heeds agenda own before

omit [Scalar α] in
/-- As many units are counted as there are cues for it. -/
theorem countP_cuesOf (past : List (Deed α)) :
    (cuesOf past).countP Cue.isCount = (past.flatMap fun deed => deed.task.counts).length := by
  induction past with
  | nil => rfl
  | cons deed past ih =>
      obtain ⟨task, reply⟩ := deed
      rw [List.flatMap_cons, List.length_append, ← ih, ← List.singleton_append, cuesOf_append,
        List.countP_append, cuesOf_singleton]
      congr 1
      cases task with
      | resolve id quantity purpose => cases quantity <;> rfl
      | _ => rfl

end Lives

/-- A run is bound to take the cues of its steps. -/
theorem Worker.flatMap_cues_ofSteps [Scalar α] (evaluate : String → Except EvalError α)
    (steps : List (Command α)) (pollInterval : Duration) (runId : String) (name : Option String)
    (totalWork : UInt64) :
    (ofSteps steps pollInterval runId name totalWork).agenda.flatMap (Task.cues evaluate) =
      (Command.expandAll steps).flatMap (WorkUnit.cues evaluate) := by
  simp [ofSteps, Task.cues, Task.units]

end Scan
