import Scan.Proofs.Ending
import Scan.Proofs.Pausing

/-!
# Lives under a pause

A pause lets the worker go on to the next safe point. A delay in progress looks at the clock until it
is over and does not heed the pause; apart from these looks the worker has a bounded number of steps
left, among them at most one access, one evaluation and one unit of work.
-/

namespace Scan

variable {α : Type}

namespace Task

/-- Whether a task is one of those by which a delay waits for its end. -/
def isLook : Task α → Bool
  | .heedAbort .. | .checkDeadline .. | .restUntil .. => true
  | _ => false

/-- How many steps a delay takes from a look on once its end has come. -/
def patience : Task α → Nat
  | .checkDeadline .. => 1
  | .heedAbort .. => 2
  | .restUntil .. => 3
  | _ => 0

theorem patience_of_not_isLook {task : Task α} (plain : task.isLook = false) :
    task.patience = 0 := by
  cases task <;> first | rfl | exact absurd plain.symm Bool.false_ne_true

theorem one_le_patience {task : Task α} (look : task.isLook = true) : 1 ≤ task.patience := by
  cases task <;> first | exact absurd look Bool.false_ne_true | simp [patience]

theorem isLook_of_cleansUp {task : Task α} (cleans : task.cleansUp = true) :
    task.isLook = false := by
  cases task <;> first | rfl | exact absurd cleans Bool.false_ne_true

end Task

/-- Whether a deed is a look at the clock that comes before the end of its delay. -/
def Deed.isEarly (deed : Deed α) : Bool :=
  match deed.task, deed.reply with
  | .checkDeadline _ deadline, some (.told now) => !decide (deadline ≤ now)
  | _, _ => false

namespace Worker

/-! ## Agendas without looks -/

/-- Tasks none of which is a look. -/
def ArePlain (tasks : List (Task α)) : Prop :=
  ∀ task ∈ tasks, task.isLook = false

/-- An agenda without a look in front. -/
def ahead : List (Task α) → List (Task α)
  | [] => []
  | task :: rest => if task.isLook then rest else task :: rest

variable {task : Task α} {rest more agenda : List (Task α)}

@[simp] theorem arePlain_nil : ArePlain ([] : List (Task α)) :=
  List.forall_mem_nil _

@[simp] theorem arePlain_cons :
    ArePlain (task :: rest) ↔ task.isLook = false ∧ ArePlain rest :=
  List.forall_mem_cons

@[simp] theorem arePlain_append : ArePlain (more ++ rest) ↔ ArePlain more ∧ ArePlain rest :=
  List.forall_mem_append

theorem ArePlain.ahead_eq (plain : ArePlain agenda) : ahead agenda = agenda := by
  cases agenda with
  | nil => rfl
  | cons task rest => simp [ahead, (arePlain_cons.mp plain).1]

theorem ArePlain.unwind (plain : ArePlain agenda) : ArePlain (unwind agenda) :=
  fun task member => plain task ((unwind_suffix agenda).mem member)

theorem ahead_cons_of_isLook (look : task.isLook = true) : ahead (task :: rest) = rest :=
  if_pos look

/-- How many steps the look in front of an agenda takes once its end has come. -/
def patience : List (Task α) → Nat
  | [] => 0
  | task :: _ => task.patience

theorem ArePlain.patience_eq (plain : ArePlain agenda) : patience agenda = 0 := by
  cases agenda with
  | nil => rfl
  | cons task rest => exact Task.patience_of_not_isLook (arePlain_cons.mp plain).1

theorem ahead_suffix (agenda : List (Task α)) : ahead agenda <:+ agenda := by
  cases agenda with
  | nil => exact List.suffix_rfl
  | cons task rest =>
      rw [ahead]
      split
      · exact List.suffix_cons task rest
      · exact List.suffix_rfl

/-- Behind its first task an agenda has no look if it has none but in front. -/
theorem arePlain_tail (plain : ArePlain (ahead (task :: rest))) : ArePlain rest := by
  rw [ahead] at plain
  split at plain
  · exact plain
  · exact (arePlain_cons.mp plain).2

theorem arePlain_pollTasks (poll : Poll α) : ArePlain (pollTasks poll) := by
  simp [pollTasks, Task.isLook]

theorem arePlain_writeTasks (id : Nat) (channel : String) (completion : Completion α) (value : α) :
    ArePlain (writeTasks id channel completion value) := by
  unfold writeTasks
  split
  · exact arePlain_cons.mpr ⟨rfl, arePlain_pollTasks _⟩
  · simp [Task.isLook]

theorem arePlain_purposeTasks (id : Nat) (value : α) (purpose : Purpose α) :
    ArePlain (purposeTasks id value purpose) := by
  cases purpose with
  | assign => exact arePlain_writeTasks _ _ _ _
  | await =>
      simp only [purposeTasks]
      split
      · simp [Task.isLook]
      · exact arePlain_pollTasks _

theorem arePlain_nestedTasks (commands : List (Nat × Command α)) :
    ArePlain (nestedTasks commands) := by
  induction commands with
  | nil => exact arePlain_nil
  | cons pair rest ih =>
      obtain ⟨id, command⟩ := pair
      rw [nestedTasks_cons]
      simpa [Task.isLook] using ih

theorem arePlain_commandTasks (id : Nat) (command : Command α) :
    ArePlain (commandTasks id command ++ [Task.settle id command, .leave]) := by
  rw [arePlain_append]
  refine ⟨?_, by simp [Task.isLook]⟩
  cases command with
  | group => exact arePlain_nestedTasks _
  | _ => simp [commandTasks, Task.isLook]

theorem arePlain_iterationTasks [Scalar α] (id : Nat) (sweep : Sweep α) (body : List (Command α))
    (iteration : Nat) : ArePlain (iterationTasks id sweep body iteration) := by
  simp only [iterationTasks, arePlain_append]
  exact ⟨⟨by simp [Task.isLook], arePlain_writeTasks _ _ _ _⟩, by simp [Task.isLook]⟩

theorem arePlain_stepTasks (step : Nat) (remaining : List (Nat × Command α)) :
    ArePlain (stepTasks step remaining) := by
  cases remaining <;> simp [stepTasks, Task.isLook]

end Worker

/-! ## Looks one after another -/

section Steps

variable [Scalar α] {board after : Board} {worker next : Worker α} {task : Task α}
variable {rest more : List (Task α)} {reply : Option (Reply α)}

/-- A look is followed by another one or by nothing, and the delay goes on only past an early one. -/
theorem Task.looks_of_spawns (look : task.isLook = true)
    (spawns : task.Spawns board worker reply after more) :
    (more = [] ∨ ∃ other, other.isLook = true ∧ more = [other]) ∧
      1 + Worker.patience more ≤ task.patience + 3 * (Deed.isEarly ⟨task, reply⟩).toNat := by
  cases spawns with
  | heedAbort | delayGoesOn => exact ⟨.inr ⟨_, rfl, rfl⟩, Nat.le_add_right _ _⟩
  | deadlineAhead id deadline now ahead =>
      refine ⟨.inr ⟨_, rfl, rfl⟩, ?_⟩
      simp [Worker.patience, patience, Deed.isEarly, ahead]
  | deadlinePassed | delayCut =>
      refine ⟨.inl rfl, ?_⟩
      simp only [Worker.patience, patience]
      omega
  | _ => exact absurd look Bool.false_ne_true

/-- Only the beginning of a delay leads to a look. -/
theorem Task.arePlain_of_spawns (plain : task.isLook = false)
    (spawns : task.Spawns board worker reply after more) :
    Worker.ArePlain more ∨ ∃ id duration deadline,
      task = .armDelay id duration ∧ more = [.heedAbort id deadline] := by
  cases spawns with
  | armDelay => exact .inr ⟨_, _, _, rfl, rfl⟩
  | literal | evaluated => exact .inl (Worker.arePlain_purposeTasks _ _ _)
  | baseline => exact .inl (Worker.arePlain_pollTasks _)
  | enter => exact .inl (Worker.arePlain_commandTasks _ _)
  | round => exact .inl (Worker.arePlain_iterationTasks _ _ _ _)
  | nest => exact .inl (Worker.arePlain_nestedTasks _)
  | steps => exact .inl (Worker.arePlain_stepTasks _ _)
  | _ => first
    | exact absurd plain.symm Bool.false_ne_true
    | exact .inl (by simp [Task.isLook])

/-- The tasks in place of one have a look in front at most. -/
theorem Task.arePlain_ahead_of_spawns (plain : Worker.ArePlain (Worker.ahead (task :: rest)))
    (spawns : task.Spawns board worker reply after more) :
    Worker.ArePlain (Worker.ahead (more ++ rest)) := by
  have behind := Worker.arePlain_tail plain
  cases look : task.isLook with
  | true =>
      obtain ⟨rfl | ⟨other, look, rfl⟩, -⟩ := Task.looks_of_spawns look spawns
      · rwa [List.nil_append, behind.ahead_eq]
      · rwa [List.singleton_append, Worker.ahead_cons_of_isLook look]
  | false =>
      rcases Task.arePlain_of_spawns look spawns with none | ⟨id, _, deadline, -, rfl⟩
      · have all := Worker.arePlain_append.mpr ⟨none, behind⟩
        rwa [all.ahead_eq]
      · rwa [List.singleton_append, Worker.ahead_cons_of_isLook rfl]

end Steps

/-- A worker never has a look but in front of its agenda. -/
theorem Life.arePlain_ahead [Scalar α] {others : Board → Board → Prop} {board now : Board}
    {worker current : Worker α} {past : List (Deed α)}
    (life : Life others board worker past now current) (steady : worker.IsSteady)
    (start : Worker.ArePlain (Worker.ahead worker.agenda)) :
    Worker.ArePlain (Worker.ahead current.agenda) := by
  have unwound : ∀ {agenda : List (Task α)}, Worker.ArePlain (Worker.ahead agenda) →
      Worker.ArePlain (Worker.ahead (Worker.unwind agenda)) := by
    intro agenda plain
    cases agenda with
    | nil => exact plain
    | cons task rest =>
        cases cleans : task.cleansUp with
        | true => rwa [Worker.unwind_cons_of_cleansUp cleans]
        | false =>
            rw [Worker.unwind_cons_of_not_cleansUp cleans]
            have behind := (Worker.arePlain_tail plain).unwind
            rwa [behind.ahead_eq]
  induction life with
  | begin => exact start
  | wait _ _ ih => exact ih
  | work life agenda stepped ih =>
      rw [agenda] at ih
      cases Worker.outcome_of_step? (life.isSteady steady) agenda stepped with
      | sound _ spawns => exact Task.arePlain_ahead_of_spawns ih spawns
      | broken =>
          have behind := (Worker.arePlain_tail ih).unwind
          rwa [behind.ahead_eq]
      | cleaning _ _ spawns => exact unwound (Task.arePlain_ahead_of_spawns ih spawns)

/-! ## Lives under a pause -/

/-- How many feats of a kind a worker does at most before the next safe point, when a delay does not
count as one. -/
def Worker.outlook (feat : Feat) (worker : Worker α) : Nat :=
  if worker.failure.isSome then 0 else exposure feat (ahead worker.agenda)

/-- A bound on the steps that a worker takes before it comes to a safe point or to its end, apart
from those of a delay whose end is still ahead. -/
def Worker.distance (worker : Worker α) : Nat :=
  if worker.failure.isSome then 3 * tidying worker.agenda
  else 3 * effort (ahead worker.agenda) + patience worker.agenda

section Lives

variable [Scalar α] {others : Board → Board → Prop} {board now after : Board}
variable {worker current next : Worker α} {past : List (Deed α)} {task : Task α}
variable {rest more : List (Task α)} {reply : Option (Reply α)} {feat : Feat}

omit [Scalar α] in
theorem Worker.outlook_of_sound (sound : worker.failure = none) :
    worker.outlook feat = exposure feat (ahead worker.agenda) := by
  simp [outlook, sound]

omit [Scalar α] in
theorem Worker.outlook_of_failed (failed : worker.failure.isSome = true) :
    worker.outlook feat = 0 := by
  simp [outlook, failed]

omit [Scalar α] in
theorem Worker.distance_of_sound (sound : worker.failure = none) :
    worker.distance = 3 * effort (ahead worker.agenda) + patience worker.agenda := by
  simp [distance, sound]

omit [Scalar α] in
theorem Worker.distance_of_failed (failed : worker.failure.isSome = true) :
    worker.distance = 3 * tidying worker.agenda := by
  simp [distance, failed]

omit [Scalar α] in
theorem Task.isFeat_of_isLook (look : task.isLook = true) : task.isFeat feat = false := by
  cases task <;> first | rfl | exact absurd look Bool.false_ne_true

/-- Away from looks, a task that succeeds under a pause is no safe point. -/
theorem Task.isSafePoint_of_paused (spawns : task.Spawns board worker reply after more)
    (paused : board.control.paused = true) (plain : task.isLook = false) :
    task.isSafePoint = false := by
  cases spawns with
  | safePoint running => simp [paused] at running
  | heedAbort => exact absurd plain.symm Bool.false_ne_true
  | _ => rfl

/-- A request to pause that others leave alone stays. -/
theorem Life.paused (life : Life others board worker past now current) (steady : worker.IsSteady)
    (keeps : ∀ {now after : Board}, others now after →
      now.control.paused = true → after.control.paused = true)
    (paused : board.control.paused = true) : now.control.paused = true := by
  induction life with
  | begin => exact paused
  | wait _ other ih => exact keeps other ih
  | work life agenda stepped ih =>
      cases Worker.outcome_of_step? (life.isSteady steady) agenda stepped with
      | sound _ spawns | cleaning _ _ spawns => rwa [Task.control_of_spawns spawns]
      | broken => exact ih

/-- What a step under a pause does is within the outlook of its worker. -/
theorem Worker.Outcome.isFeat_add_outlook_le (agenda : worker.agenda = task :: rest)
    (outcome : Outcome board worker task rest reply after next)
    (plain : ArePlain (ahead worker.agenda)) (paused : board.control.paused = true) :
    (task.isFeat feat).toNat + next.outlook feat ≤ worker.outlook feat := by
  rw [agenda] at plain
  have behind := arePlain_tail plain
  cases outcome with
  | @sound _ more sound spawns =>
      rw [outlook_of_sound sound, outlook_of_sound (by simp [sound]), agenda, agenda_withAgenda]
      cases look : task.isLook with
      | true =>
          rw [Task.isFeat_of_isLook look, ahead_cons_of_isLook look]
          obtain ⟨rfl | ⟨other, look, rfl⟩, -⟩ := Task.looks_of_spawns look spawns
          · rw [List.nil_append, behind.ahead_eq]
            exact Nat.le_of_eq (Nat.zero_add _)
          · rw [List.singleton_append, ahead_cons_of_isLook look]
            exact Nat.le_of_eq (Nat.zero_add _)
      | false =>
          have all : ArePlain (task :: rest) := arePlain_cons.mpr ⟨look, behind⟩
          have goesOn := Task.isSafePoint_of_paused spawns paused look
          rw [all.ahead_eq, exposure_cons, goesOn]
          rcases Task.arePlain_of_spawns look spawns with none | ⟨id, _, deadline, rfl, rfl⟩
          · have within : (task.isFeat feat).toNat + exposure feat more ≤ task.reach feat :=
              Task.isFeat_add_exposure_le spawns goesOn
            have joined := exposure_append_le feat more rest
            rw [(arePlain_append.mpr ⟨none, behind⟩).ahead_eq]
            simp only [Bool.false_eq_true, if_false]
            omega
          · rw [List.singleton_append, ahead_cons_of_isLook rfl]
            cases feat <;> exact Nat.le_refl _
  | broken sound fails =>
      rw [outlook_of_sound sound, outlook_of_failed rfl, agenda]
      cases look : task.isLook with
      | true =>
          rw [Task.isFeat_of_isLook look]
          exact Nat.zero_le _
      | false =>
          have all : ArePlain (task :: rest) := arePlain_cons.mpr ⟨look, behind⟩
          have within : (task.isFeat feat).toNat ≤ task.reach feat := task.isFeat_le_reach
          rw [all.ahead_eq, exposure_cons]
          omega
  | cleaning failed cleans spawns =>
      rw [Task.isFeat_of_cleansUp cleans, outlook_of_failed (by simpa using failed)]
      exact Nat.zero_le _

/-- A step under a pause brings its worker nearer to a safe point or to its end, unless it is an early
look. -/
theorem Worker.Outcome.distance_le (agenda : worker.agenda = task :: rest)
    (outcome : Outcome board worker task rest reply after next)
    (plain : ArePlain (ahead worker.agenda)) (paused : board.control.paused = true) :
    1 + next.distance ≤ worker.distance + 3 * (Deed.isEarly ⟨task, reply⟩).toNat := by
  rw [agenda] at plain
  have behind := arePlain_tail plain
  cases outcome with
  | @sound _ more sound spawns =>
      rw [distance_of_sound sound, distance_of_sound (by simp [sound]), agenda, agenda_withAgenda]
      cases look : task.isLook with
      | true =>
          rw [ahead_cons_of_isLook look]
          obtain ⟨rfl | ⟨other, look, rfl⟩, used⟩ := Task.looks_of_spawns look spawns
          · rw [List.nil_append, behind.ahead_eq, behind.patience_eq]
            simp only [patience] at used ⊢
            omega
          · rw [List.singleton_append, ahead_cons_of_isLook look]
            simp only [patience] at used ⊢
            omega
      | false =>
          have all : ArePlain (task :: rest) := arePlain_cons.mpr ⟨look, behind⟩
          have goesOn := Task.isSafePoint_of_paused spawns paused look
          rw [all.ahead_eq, all.patience_eq, effort, goesOn]
          simp only [Bool.false_eq_true, if_false]
          rcases Task.arePlain_of_spawns look spawns with none | ⟨id, _, deadline, rfl, rfl⟩
          · have used := Task.effort_of_spawns spawns goesOn
            have joined := effort_append_le more rest
            have plainMore := arePlain_append.mpr ⟨none, behind⟩
            rw [plainMore.ahead_eq, plainMore.patience_eq]
            omega
          · rw [List.singleton_append, ahead_cons_of_isLook rfl]
            simp only [patience, Task.patience, Task.effort]
            omega
  | broken sound fails =>
      have behind' := tidying_le_effort rest
      rw [distance_of_sound sound, distance_of_failed rfl, tidying_unwind, agenda]
      cases look : task.isLook with
      | true =>
          have used := Task.one_le_patience look
          rw [ahead_cons_of_isLook look]
          simp only [patience]
          omega
      | false =>
          have all : ArePlain (task :: rest) := arePlain_cons.mpr ⟨look, behind⟩
          have own := task.one_le_effort
          rw [all.ahead_eq, effort]
          split <;> omega
  | cleaning failed cleans spawns =>
      have used := Task.tidying_of_spawns spawns failed cleans
      rw [distance_of_failed failed, distance_of_failed (by simpa using failed), agenda,
        agenda_withAgenda, tidying_unwind, tidying_append, tidying_cons]
      omega

/-- What a worker does under a pause is within its outlook at the beginning. -/
theorem Life.feats_add_outlook_le (life : Life others board worker past now current)
    (steady : worker.IsSteady) (plain : Worker.ArePlain (Worker.ahead worker.agenda))
    (keeps : ∀ {now after : Board}, others now after →
      now.control.paused = true → after.control.paused = true)
    (paused : board.control.paused = true) :
    featsIn feat past + current.outlook feat ≤ worker.outlook feat := by
  induction life with
  | begin => simp [featsIn]
  | wait _ _ ih => exact ih
  | @work past _ _ _ _ task rest reply life agenda stepped ih =>
      have counted : featsIn feat (past ++ [⟨task, reply⟩]) =
          featsIn feat past + (task.isFeat feat).toNat := by
        cases feats : task.isFeat feat <;> simp [featsIn, List.countP_append, feats]
      have used : (task.isFeat feat).toNat + _ ≤ _ :=
        (Worker.outcome_of_step? (life.isSteady steady) agenda stepped).isFeat_add_outlook_le agenda
          (life.arePlain_ahead steady plain) (life.paused steady keeps paused)
      omega

/-- A worker under a pause has a bounded number of steps left, apart from early looks and what they
lead to. -/
theorem Life.length_add_distance_le (life : Life others board worker past now current)
    (steady : worker.IsSteady) (plain : Worker.ArePlain (Worker.ahead worker.agenda))
    (keeps : ∀ {now after : Board}, others now after →
      now.control.paused = true → after.control.paused = true)
    (paused : board.control.paused = true) :
    past.length + current.distance ≤ worker.distance + 3 * past.countP Deed.isEarly := by
  induction life with
  | begin => simp
  | wait _ _ ih => exact ih
  | @work past _ _ _ _ task rest reply life agenda stepped ih =>
      have counted : (past ++ [(⟨task, reply⟩ : Deed α)]).countP Deed.isEarly =
          past.countP Deed.isEarly + (Deed.isEarly ⟨task, reply⟩).toNat := by
        cases early : Deed.isEarly ⟨task, reply⟩ <;> simp [List.countP_append, early]
      have used :=
        (Worker.outcome_of_step? (life.isSteady steady) agenda stepped).distance_le agenda
          (life.arePlain_ahead steady plain) (life.paused steady keeps paused)
      rw [List.length_append, List.length_singleton]
      omega

/-- A worker that is held by a request that others leave alone passes no safe point. -/
theorem Life.ne_safePoint (life : Life others board worker past now current)
    (steady : worker.IsSteady)
    (keeps : ∀ {now after : Board}, others now after →
      now.control.blocks = true → after.control.blocks = true)
    (blocks : board.control.blocks = true) :
    now.control.blocks = true ∧ ∀ deed ∈ past, deed.task ≠ .safePoint := by
  induction life with
  | begin => exact ⟨blocks, by simp⟩
  | wait _ other ih => exact ⟨keeps other ih.1, ih.2⟩
  | @work past now after current next task rest reply life agenda stepped ih =>
      obtain ⟨blocked, none⟩ := ih
      have same : after.control = now.control := by
        cases Worker.outcome_of_step? (life.isSteady steady) agenda stepped with
        | sound _ spawns | cleaning _ _ spawns => exact Task.control_of_spawns spawns
        | broken => rfl
      refine ⟨same ▸ blocked, fun deed member => ?_⟩
      rcases List.mem_append.mp member with member | member
      · exact none deed member
      · rw [List.mem_singleton.mp member]
        rintro rfl
        have held : current.next now = .held :=
          Worker.next_eq_held.mpr ⟨⟨rest, agenda⟩, blocked⟩
        rw [Worker.step?, held, Next.take?_held] at stepped
        cases stepped

end Lives

end Scan
