import Scan.Proofs.Numbering

/-!
# The spacing of safe points

Between two safe points a worker does little: at most one access to a channel, at most one
evaluation, and so on. The exposure of an agenda bounds what its tasks do before the next safe
point. It never exceeds one in a whole run, and once an abort is requested, so that no safe point is
passed any more, every deed uses some of it up.
-/

namespace Scan

variable {α : Type}

/-- The deeds that safe points keep apart. -/
inductive Feat where
  /-- A read or a write of a channel. -/
  | access
  /-- An evaluation of an expression. -/
  | evaluation
  /-- The start of a step without nested steps. -/
  | leaf
  /-- The completion of a unit of work. -/
  | unit
  /-- The word that a top-level step starts. -/
  | opening
  deriving DecidableEq

/-- Whether a task is a feat. -/
def Task.isFeat (feat : Feat) : Task α → Bool
  | .baseline .. | .write .. | .probe .. => feat = .access
  | .resolve _ (.expression _) _ => feat = .evaluation
  | .start _ command => feat = .leaf && !command.isComposite
  | .countUnit .. => feat = .unit
  | .announceStart .. => feat = .opening
  | _ => false

/-- How many feats of a kind a task does at most, it and the tasks that it leads to, before the
first safe point among them. -/
def Task.reach (feat : Feat) : Task α → Nat
  | .baseline .. | .write .. | .probe .. => if feat = .access then 1 else 0
  | .resolve .. => if feat = .access ∨ feat = .evaluation then 1 else 0
  | .countUnit .. => if feat = .unit then 1 else 0
  | .settle _ command => if feat = .unit then (!command.isComposite).toNat else 0
  | .announceStart _ _ command => if feat = .opening then 1 else (!command.isComposite).toNat
  | .start _ command => if feat = .opening then 0 else (!command.isComposite).toNat
  | .enter _ command =>
      if feat = .opening ∨ feat = .leaf then 0 else (!command.isComposite).toNat
  | _ => 0

/-- How many feats of a kind a task and the tasks that it leads to do at most between two safe
points. The word that a top-level step is over counts as one that a step starts, since it stands
between the two. -/
def Task.load (feat : Feat) : Task α → Nat
  | .announceFinish .. => if feat = .opening then 1 else 0
  | .armPoll .. | .checkLimit .. | .restPoll .. => if feat = .access then 1 else 0
  | .announceStart .. | .start .. | .enter .. | .iterate .. | .nest .. | .steps ..
  | .prepare .. => 1
  | task => task.reach feat

/-- Whether a worker heeds an abort at a task. -/
def Task.isSafePoint : Task α → Bool
  | .safePoint | .heedAbort .. => true
  | _ => false

namespace Worker

/-- How many feats of a kind an agenda leads to at most before the next safe point. -/
def exposure (feat : Feat) : List (Task α) → Nat
  | [] => 0
  | task :: rest => task.reach feat + if task.isSafePoint then 0 else exposure feat rest

/-- An agenda in which any two feats of a kind have a safe point between them. -/
def Spaced (feat : Feat) : List (Task α) → Prop
  | [] => True
  | task :: rest => task.load feat + exposure feat rest ≤ 1 ∧ Spaced feat rest

variable (feat : Feat)

theorem exposure_append_le (front rest : List (Task α)) :
    exposure feat (front ++ rest) ≤ exposure feat front + exposure feat rest := by
  induction front with
  | nil => simp
  | cons task front ih =>
      simp only [List.cons_append, exposure]
      split <;> omega

theorem Spaced.of_suffix {feat : Feat} {front rest : List (Task α)}
    (spaced : Spaced feat (front ++ rest)) : Spaced feat rest := by
  induction front with
  | nil => exact spaced
  | cons _ _ ih => exact ih spaced.2

theorem Spaced.unwind {feat : Feat} {agenda : List (Task α)} (spaced : Spaced feat agenda) :
    Spaced feat (unwind agenda) := by
  obtain ⟨front, split⟩ := unwind_suffix agenda
  rw [← split] at spaced
  exact spaced.of_suffix

/-! ## Spawned tasks are spaced -/

variable {feat : Feat} {rest : List (Task α)}

theorem spaced_cons {task : Task α} :
    Spaced feat (task :: rest) ↔ task.load feat + exposure feat rest ≤ 1 ∧ Spaced feat rest :=
  Iff.rfl

theorem exposure_cons {task : Task α} : exposure feat (task :: rest) =
    task.reach feat + if task.isSafePoint then 0 else exposure feat rest := rfl

theorem reach_le_load (task : Task α) : task.reach feat ≤ task.load feat := by
  cases feat <;> cases task <;> simp [Task.reach, Task.load, Bool.toNat_le]

theorem Spaced.exposure_le {agenda : List (Task α)} (spaced : Spaced feat agenda) :
    exposure feat agenda ≤ 1 := by
  cases agenda with
  | nil => exact Nat.zero_le 1
  | cons task rest =>
      have bound := spaced.1
      have reaches : task.reach feat ≤ task.load feat := reach_le_load task
      rw [exposure_cons]
      split <;> omega

/-- A wait has a safe point before each of its reads. -/
theorem exposure_pollTasks (poll : Poll α) :
    exposure feat (pollTasks poll ++ rest) = exposure feat rest := by
  cases feat <;> simp [pollTasks, exposure_cons, Task.reach, Task.isSafePoint]

theorem exposure_pollTasks_nil (poll : Poll α) : exposure feat (pollTasks poll) = 0 := by
  rw [← List.append_nil (pollTasks poll), exposure_pollTasks]
  rfl

theorem spaced_pollTasks (poll : Poll α) (spaced : Spaced feat rest)
    (free : Task.load feat (.armPoll poll) + exposure feat rest ≤ 1) :
    Spaced feat (pollTasks poll ++ rest) := by
  have below : exposure feat rest ≤ 1 := by omega
  cases feat <;>
    simp_all [pollTasks, spaced_cons, exposure_cons, Task.load, Task.reach, Task.isSafePoint]

/-- A write is the only access before the wait that follows it. -/
theorem exposure_writeTasks (id : Nat) (channel : String) (completion : Completion α) (value : α) :
    exposure feat (writeTasks id channel completion value) =
      Task.reach feat (.write channel value) := by
  unfold writeTasks
  split
  · rw [exposure_cons, exposure_pollTasks_nil]
    cases feat <;> rfl
  · cases feat <;> rfl

/-- A value is used for one access at most before the next safe point. -/
theorem exposure_purposeTasks_le (id : Nat) (value : α) (purpose : Purpose α) (channel : String) :
    exposure feat (purposeTasks id value purpose) ≤ Task.reach feat (.write channel value) := by
  cases purpose with
  | assign assignment =>
      rw [purposeTasks, exposure_writeTasks]
      cases feat <;> exact Nat.le_refl _
  | await condition =>
      simp only [purposeTasks]
      split
      · cases feat <;> exact Nat.le_refl _
      · rw [awaitTasks, exposure_pollTasks_nil]
        exact Nat.zero_le _

theorem spaced_writeTasks (id : Nat) (channel : String) (completion : Completion α) (value : α)
    (spaced : Spaced feat rest)
    (free : Task.load feat (.write channel value) + exposure feat rest ≤ 1) :
    Spaced feat (writeTasks id channel completion value ++ rest) := by
  unfold writeTasks
  split
  · rw [List.cons_append, spaced_cons, exposure_pollTasks]
    refine ⟨free, spaced_pollTasks _ spaced ?_⟩
    cases feat <;> exact free
  · exact ⟨free, spaced⟩

theorem spaced_purposeTasks (id : Nat) (value : α) (purpose : Purpose α)
    (spaced : Spaced feat rest)
    (free : Task.load feat (.resolve id (.literal value) purpose) + exposure feat rest ≤ 1) :
    Spaced feat (purposeTasks id value purpose ++ rest) := by
  have below : exposure feat rest ≤ 1 := by omega
  cases purpose with
  | assign assignment =>
      apply spaced_writeTasks _ _ _ _ spaced
      cases feat <;> simp_all [Task.load, Task.reach]
  | await condition =>
      simp only [purposeTasks]
      split
      · refine ⟨?_, spaced⟩
        cases feat <;> simp_all [Task.load, Task.reach]
      · apply spaced_pollTasks _ spaced
        cases feat <;> simp_all [Task.load, Task.reach]

theorem exposure_nestedTasks (commands : List (Nat × Command α)) (free : exposure feat rest = 0) :
    exposure feat (nestedTasks commands ++ rest) = 0 := by
  cases commands with
  | nil => exact free
  | cons pair rest => cases feat <;> rfl

/-- Nested steps each have a safe point of their own. -/
theorem spaced_nestedTasks (commands : List (Nat × Command α)) (spaced : Spaced feat rest)
    (free : exposure feat rest = 0) : Spaced feat (nestedTasks commands ++ rest) := by
  induction commands with
  | nil => exact spaced
  | cons pair commands ih =>
      obtain ⟨id, command⟩ := pair
      have nothing := exposure_nestedTasks commands free
      rw [nestedTasks_cons, List.cons_append, List.cons_append, spaced_cons, spaced_cons,
        exposure_cons, nothing]
      refine ⟨?_, ?_, ih⟩ <;>
        cases feat <;> cases composite : command.isComposite <;>
          simp [Task.load, Task.reach, Task.isSafePoint, composite]

/-- What a step does while it is running. -/
theorem spaced_commandTasks (id : Nat) (command : Command α) (spaced : Spaced feat rest)
    (free : exposure feat rest = 0) :
    Spaced feat (commandTasks id command ++ [Task.settle id command, Task.leave] ++ rest) := by
  rw [List.append_assoc]
  cases command with
  | group description children work =>
      refine spaced_nestedTasks _ ?_ ?_ <;>
        cases feat <;> simp [spaced_cons, exposure_cons, Task.load, Task.reach, Task.isSafePoint,
          Command.isComposite, free, spaced]
  | delay | set | wait | comment | loop =>
      cases feat <;>
        simp [commandTasks, spaced_cons, exposure_cons, Task.load, Task.reach, Task.isSafePoint,
          Command.isComposite, free, spaced]

/-- An iteration writes behind a safe point, and its body begins with one. -/
theorem spaced_iterationTasks [Scalar α] (id : Nat) (sweep : Sweep α) (body : List (Command α))
    (iteration : Nat) (spaced : Spaced feat rest) (free : exposure feat rest = 0) :
    Spaced feat (iterationTasks id sweep body iteration ++ rest) := by
  have behind : Spaced feat ([Task.countUnit id (.value sweep iteration), .nest body,
      .iterate id sweep body (iteration + 1)] ++ rest) := by
    cases feat <;>
      simp [spaced_cons, exposure_cons, Task.load, Task.reach, Task.isSafePoint, free, spaced]
  have written := spaced_writeTasks id sweep.channel sweep.completion (sweep.value iteration) behind
    (by cases feat <;> simp [exposure_cons, Task.load, Task.reach, Task.isSafePoint, free])
  rw [iterationTasks, List.append_assoc, List.append_assoc, List.singleton_append, spaced_cons]
  refine ⟨?_, written⟩
  have bound := written.exposure_le
  cases feat <;> simpa [Task.load, Task.reach] using bound

theorem spaced_stepTasks (step : Nat) (remaining : List (Nat × Command α))
    (spaced : Spaced feat rest) (free : exposure feat rest = 0) :
    Spaced feat (stepTasks step remaining ++ rest) := by
  cases remaining with
  | nil => exact spaced
  | cons pair remaining =>
      obtain ⟨id, command⟩ := pair
      cases feat <;> cases composite : command.isComposite <;>
        simp [stepTasks, spaced_cons, exposure_cons, Task.load, Task.reach, Task.isSafePoint, free,
          spaced, composite]

end Worker

section Steps

variable [Scalar α] {feat : Feat} {board after : Board} {worker : Worker α} {task : Task α}
variable {rest more : List (Task α)} {reply : Option (Reply α)}

/-- The tasks in place of one that is spaced from the others are spaced from them too. -/
theorem Task.spaced_of_spawns (spawns : task.Spawns board worker reply after more)
    (spaced : Worker.Spaced feat (task :: rest)) : Worker.Spaced feat (more ++ rest) := by
  obtain ⟨free, spaced⟩ := spaced
  cases spawns with
  | literal id value purpose => exact Worker.spaced_purposeTasks id value purpose spaced free
  | evaluated id text purpose value =>
      apply Worker.spaced_purposeTasks id value purpose spaced
      cases feat <;> exact free
  | baseline id condition desired initial =>
      apply Worker.spaced_pollTasks _ spaced
      cases feat <;> exact free
  | enter id command =>
      have full : Task.load feat (.enter id command) = 1 := by cases feat <;> rfl
      exact Worker.spaced_commandTasks id command spaced (by omega)
  | round id sweep body iteration =>
      have full : Task.load feat (.iterate id sweep body iteration) = 1 := by cases feat <;> rfl
      exact Worker.spaced_iterationTasks id sweep body iteration spaced (by omega)
  | nest body =>
      have full : Task.load feat (.nest body) = 1 := by cases feat <;> rfl
      exact Worker.spaced_nestedTasks _ spaced (by omega)
  | steps step remaining =>
      have full : Task.load feat (.steps step remaining) = 1 := by cases feat <;> rfl
      exact Worker.spaced_stepTasks step remaining spaced (by omega)
  | announceStart step id command =>
      have full : Task.load feat (.announceStart step id command) = 1 := by cases feat <;> rfl
      have nothing : Worker.exposure feat rest = 0 := by omega
      cases feat <;> simp [Worker.spaced_cons, Worker.exposure_cons, Task.load, Task.reach,
        Task.isSafePoint, nothing, spaced]
  | start id command =>
      have full : Task.load feat (.start id command) = 1 := by cases feat <;> rfl
      have nothing : Worker.exposure feat rest = 0 := by omega
      cases feat <;> simp [Worker.spaced_cons, Task.load, nothing, spaced]
  | _ =>
      have below : Worker.exposure feat rest ≤ 1 := by omega
      cases feat <;>
        simp_all [Worker.spaced_cons, Worker.exposure_cons, Task.load, Task.reach,
          Task.isSafePoint]

/-- What a task does is within its reach, together with what the tasks in its place reach. -/
theorem Task.isFeat_add_exposure_le (spawns : task.Spawns board worker reply after more)
    (goesOn : task.isSafePoint = false) :
    (task.isFeat feat).toNat + Worker.exposure feat more ≤ task.reach feat := by
  cases spawns with
  | literal id value purpose =>
      have used : Worker.exposure feat (Worker.purposeTasks id value purpose) ≤
          Task.reach feat (.write "" value) :=
        Worker.exposure_purposeTasks_le id value purpose ""
      cases feat <;> simp_all [Task.isFeat, Task.reach]
  | evaluated id text purpose value =>
      have used : Worker.exposure feat (Worker.purposeTasks id value purpose) ≤
          Task.reach feat (.write "" value) :=
        Worker.exposure_purposeTasks_le id value purpose ""
      cases feat <;> simp_all [Task.isFeat, Task.reach]
  | baseline id condition desired initial =>
      rw [Worker.awaitTasks, Worker.exposure_pollTasks_nil]
      cases feat <;> exact Nat.le_refl _
  | enter id command =>
      cases command with
      | group description children work =>
          have nothing : Worker.exposure feat [.settle id (.group description children work),
              .leave] = 0 := by cases feat <;> rfl
          rw [Worker.commandTasks, Worker.exposure_nestedTasks _ nothing]
          cases feat <;> exact Nat.le_refl _
      | delay | set | wait | comment | loop =>
          cases feat <;> first | exact Nat.le_refl _ | exact Nat.zero_le _
  | nest body =>
      have nothing : Worker.exposure feat (Worker.nestedTasks
          (Board.numbered board.monitors.size body) ++ []) = 0 :=
        Worker.exposure_nestedTasks _ rfl
      rw [List.append_nil] at nothing
      rw [nothing]
      cases feat <;> exact Nat.le_refl _
  | round => cases feat <;> exact Nat.le_refl _
  | steps step remaining =>
      cases remaining <;> cases feat <;> exact Nat.le_refl _
  | safePoint | heedAbort => cases goesOn
  | announceStart step id command | start id command | settleLeaf id command =>
      cases feat <;> cases composite : command.isComposite <;>
        simp_all [Worker.exposure, Task.isFeat, Task.reach, Task.isSafePoint]
  | _ =>
      cases feat <;>
        simp_all [Worker.exposure, Task.isFeat, Task.reach, Task.isSafePoint]

omit [Scalar α] in
theorem Task.isFeat_le_reach (task : Task α) : (task.isFeat feat).toNat ≤ task.reach feat := by
  cases task with
  | resolve id quantity purpose =>
      cases quantity <;> cases feat <;> first | exact Nat.le_refl _ | exact Nat.zero_le _
  | _ =>
      cases feat <;>
        first | exact Nat.le_refl _ | exact Nat.zero_le _

omit [Scalar α] in
theorem Task.isFeat_of_cleansUp (cleans : task.cleansUp = true) : task.isFeat feat = false := by
  cases feat <;> cases task <;> first | rfl | exact absurd cleans Bool.false_ne_true

end Steps

/-! ## Spacing in a whole life -/

/-- How many feats of a kind a worker did. -/
def featsIn (feat : Feat) (past : List (Deed α)) : Nat :=
  past.countP fun deed => deed.task.isFeat feat

/-- How many feats of a kind a worker does at most before the next safe point. -/
def Worker.exposed (feat : Feat) (worker : Worker α) : Nat :=
  if worker.failure.isSome then 0 else exposure feat worker.agenda

theorem Worker.exposed_of_sound {feat : Feat} {worker : Worker α} (sound : worker.failure = none) :
    worker.exposed feat = exposure feat worker.agenda := by
  simp [exposed, sound]

theorem Worker.exposed_of_failed {feat : Feat} {worker : Worker α}
    (failed : worker.failure.isSome = true) : worker.exposed feat = 0 := by
  simp [exposed, failed]

theorem Worker.spaced_ofSteps (feat : Feat) (steps : List (Command α)) (pollInterval : Duration)
    (runId : String) (name : Option String) (totalWork : UInt64) :
    Spaced feat (ofSteps steps pollInterval runId name totalWork).agenda := by
  cases feat <;> simp [ofSteps, Spaced, exposure, Task.load, Task.reach, Task.isSafePoint]

section Lives

variable [Scalar α] {others : Board → Board → Prop} {board now : Board}
variable {worker current : Worker α} {past : List (Deed α)} {feat : Feat}

/-- The tasks of a worker stay spaced. -/
theorem Life.spaced (life : Life others board worker past now current) (steady : worker.IsSteady)
    (start : Worker.Spaced feat worker.agenda) : Worker.Spaced feat current.agenda := by
  induction life with
  | begin => exact start
  | wait _ _ ih => exact ih
  | work life agenda stepped ih =>
      rw [agenda] at ih
      cases Worker.outcome_of_step? (life.isSteady steady) agenda stepped with
      | sound _ spawns => exact Task.spaced_of_spawns spawns ih
      | broken => exact ih.2.unwind
      | cleaning _ _ spawns => exact (Task.spaced_of_spawns spawns ih).unwind

/-- A request to abort is not taken back. -/
theorem Life.aborted (life : Life others board worker past now current) (steady : worker.IsSteady)
    (keeps : ∀ {now after : Board}, others now after →
      now.control.aborted = true → after.control.aborted = true)
    (aborted : board.control.aborted = true) : now.control.aborted = true := by
  induction life with
  | begin => exact aborted
  | wait _ other ih => exact keeps other ih
  | work life agenda stepped ih =>
      cases Worker.outcome_of_step? (life.isSteady steady) agenda stepped with
      | sound _ spawns | cleaning _ _ spawns => rwa [Task.control_of_spawns spawns]
      | broken => exact ih

/-- Once an abort is requested no safe point is passed. -/
theorem Task.isSafePoint_of_spawns {after : Board} {task : Task α} {reply : Option (Reply α)}
    {more : List (Task α)} (spawns : task.Spawns board worker reply after more)
    (aborted : board.control.aborted = true) : task.isSafePoint = false := by
  cases spawns <;> first | rfl | simp_all

/-- Once an abort is requested every feat uses up some of what the worker was exposed to then. -/
theorem Life.feats_add_exposed_le (life : Life others board worker past now current)
    (steady : worker.IsSteady)
    (keeps : ∀ {now after : Board}, others now after →
      now.control.aborted = true → after.control.aborted = true)
    (aborted : board.control.aborted = true) :
    featsIn feat past + current.exposed feat ≤ worker.exposed feat := by
  induction life with
  | begin => simp [featsIn]
  | wait _ _ ih => exact ih
  | @work past now after _ _ task rest reply life agenda stepped ih =>
      have counted : featsIn feat (past ++ [⟨task, reply⟩]) =
          featsIn feat past + (task.isFeat feat).toNat := by
        cases feats : task.isFeat feat <;> simp [featsIn, List.countP_append, feats]
      rw [counted]
      cases Worker.outcome_of_step? (life.isSteady steady) agenda stepped with
      | @sound _ more sound spawns =>
          have goesOn := Task.isSafePoint_of_spawns spawns (life.aborted steady keeps aborted)
          have within : (task.isFeat feat).toNat + Worker.exposure feat more ≤ task.reach feat :=
            Task.isFeat_add_exposure_le spawns goesOn
          have joined := Worker.exposure_append_le feat more rest
          rw [Worker.exposed_of_sound sound, agenda, Worker.exposure_cons, goesOn] at ih
          rw [Worker.exposed_of_sound (by simp [sound]), Worker.agenda_withAgenda]
          simp only [Bool.false_eq_true, if_false] at ih
          omega
      | broken sound fails =>
          have within : (task.isFeat feat).toNat ≤ task.reach feat := task.isFeat_le_reach
          rw [Worker.exposed_of_sound sound, agenda, Worker.exposure_cons] at ih
          rw [Worker.exposed_of_failed rfl]
          omega
      | cleaning failed cleans spawns =>
          rw [Worker.exposed_of_failed failed] at ih
          rw [Task.isFeat_of_cleansUp cleans, Worker.exposed_of_failed (by simpa using failed)]
          exact ih

end Lives

end Scan
