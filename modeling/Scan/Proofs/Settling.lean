import Scan.Proofs.Numbering

/-!
# How a top-level step is settled

Between the word that a top-level step starts and the word that it is over, its monitor goes from
idle to running and from there to the status that it ends in. The steps nested in it have monitors
of their own. So what is said at its end is what the worker knows: the step is completed if nothing
went wrong, and else it is aborted or failed like the run.
-/

namespace Scan

variable {α : Type}

namespace Task

/-- The step that a task leads to the end of. -/
def settles? : Task α → Option Nat
  | .enter id _ | .settle id _ => some id
  | _ => none

/-- Whether a task belongs to the body of a step: what is done between its entry and its end. -/
def isBody : Task α → Bool
  | .start .. | .iterate .. | .nest _ | .countUnit .. => true
  | task => task.isErrand

/-- Whether a task only follows up on a step that has been settled. -/
def isAfterword : Task α → Bool
  | .countUnit .. | .announceWork _ | .leave => true
  | _ => false

variable {task : Task α}

theorem isBody_of_isErrand (errand : task.isErrand = true) : task.isBody = true := by
  cases task <;> first | rfl | exact errand

theorem settles?_of_isBody (body : task.isBody = true) : task.settles? = none := by
  cases task <;> first | rfl | exact absurd body Bool.false_ne_true

end Task

namespace Board

variable {board : Board} {id : Nat}

theorem monitor_update_self (inBounds : id < board.monitors.size) (change : Monitor → Monitor) :
    (board.update id change).monitor id = change (board.monitor id) := by
  simp [monitor, update, Array.getD_eq_getD_getElem?, Array.getElem_modify, inBounds]

/-- A step that is running has a monitor. -/
theorem lt_size_of_running (running : (board.monitor id).status = .running) :
    id < board.monitors.size := by
  rcases Nat.lt_or_ge id board.monitors.size with inBounds | beyond
  · exact inBounds
  · obtain ⟨description, skippable, new⟩ := board.isNew_monitor_of_ge beyond
    rw [new] at running
    cases running

/-- A step that is running can be settled. -/
theorem status_settle (running : (board.monitor id).status = .running)
    (failure : Option ScanError) :
    ((board.update id (·.advance (Worker.finalStatus failure))).monitor id).status =
      Worker.finalStatus failure := by
  have allowed : StepStatus.running.canAdvance (Worker.finalStatus failure) = true := by
    unfold Worker.finalStatus
    split <;> rfl
  rw [monitor_update_self (lt_size_of_running running), Monitor.advance, running, if_pos allowed]

end Board

namespace Worker

variable {task : Task α} {id : Nat}

theorem isBody_of_mem_nestedTasks {commands : List (Nat × Command α)}
    (member : task ∈ nestedTasks commands) : task.isBody = true := by
  simp only [nestedTasks, List.mem_flatMap, List.mem_cons, List.not_mem_nil, or_false] at member
  obtain ⟨_, _, rfl | rfl⟩ := member <;> rfl

theorem isBody_of_mem_commandTasks {command : Command α}
    (member : task ∈ commandTasks id command) : task.isBody = true := by
  cases command with
  | group => exact isBody_of_mem_nestedTasks member
  | comment => cases member
  | delay | set | wait | loop =>
      simp only [commandTasks, List.mem_cons, List.not_mem_nil, or_false] at member
      rcases member with rfl | rfl | rfl | rfl | rfl <;> rfl

theorem isBody_of_mem_iterationTasks [Scalar α] {sweep : Sweep α} {body : List (Command α)}
    {iteration : Nat} (member : task ∈ iterationTasks id sweep body iteration) :
    task.isBody = true := by
  simp only [iterationTasks, List.mem_append, List.mem_cons, List.not_mem_nil, or_false] at member
  rcases member with (rfl | member) | rfl | rfl | rfl
  · rfl
  · exact Task.isBody_of_isErrand (isErrand_of_mem_writeTasks member)
  all_goals rfl

/-- How far a step is from its end, by the tasks in front of the word that it is over. -/
inductive Settles (board : Board) (failure : Option ScanError) (id : Nat) :
    List (Task α) → Prop where
  | due (sound : failure = none) (command : Command α) :
      Settles board failure id [.start id command]
  | started (sound : failure = none) (running : (board.monitor id).status = .running)
      (command : Command α) : Settles board failure id [.enter id command]
  | running {front : List (Task α)} (nested : ∀ task ∈ front, task.isNested = true)
      (apart : ∀ task ∈ front, task.settles? ≠ some id)
      (running : (board.monitor id).status = .running) (command : Command α) :
      Settles board failure id (front ++ [Task.settle id command, .leave])
  | settled {inner : List (Task α)} (afterwords : ∀ task ∈ inner, task.isAfterword = true)
      (status : (board.monitor id).status = finalStatus failure) :
      Settles board failure id inner

variable {board after : Board} {failure : Option ScanError} {inner rest more : List (Task α)}

/-- Until a step is over there is nothing in front but tasks of the step. -/
theorem Settles.isNested (settles : Settles board failure id inner) :
    ∀ task ∈ inner, task.isNested = true := by
  intro task member
  cases settles with
  | due | started =>
      cases List.mem_singleton.mp member
      rfl
  | running nested =>
      rcases List.mem_append.mp member with member | member
      · exact nested task member
      · simp only [List.mem_cons, List.not_mem_nil, or_false] at member
        rcases member with rfl | rfl <;> rfl
  | settled afterwords =>
      have follows := afterwords task member
      cases task <;> first | rfl | exact absurd follows Bool.false_ne_true

/-- When nothing is left of a step, its monitor shows how it ended. -/
theorem Settles.status_eq (settles : Settles board failure id ([] : List (Task α))) :
    (board.monitor id).status = finalStatus failure := by
  generalize shape : ([] : List (Task α)) = inner at settles
  cases settles with
  | settled _ status => exact status
  | due | started => cases shape
  | running => exact absurd shape.symm (by simp)

/-- What others do leaves the step where it is. -/
theorem Settles.of_status_eq (settles : Settles board failure id inner)
    (same : (after.monitor id).status = (board.monitor id).status) :
    Settles after failure id inner := by
  cases settles with
  | due sound command => exact .due sound command
  | started sound running command => exact .started sound (same.trans running) command
  | running nested apart running command =>
      exact .running nested apart (same.trans running) command
  | settled afterwords status => exact .settled afterwords (same.trans status)

/-- After an error the tasks that clean up still settle the step. -/
theorem Settles.unwind (settles : Settles board failure id inner)
    (failed : failure.isSome = true) : Settles board failure id (unwind inner) := by
  cases settles with
  | due sound | started sound => simp [sound] at failed
  | running nested apart running command =>
      rw [unwind_append_cons rfl]
      exact .running (fun task member => nested task ((unwind_suffix _).mem member))
        (fun task member => apart task ((unwind_suffix _).mem member)) running command
  | settled afterwords status =>
      exact .settled (fun task member => afterwords task ((unwind_suffix _).mem member)) status

variable [Scalar α] {worker : Worker α} {reply : Option (Reply α)}

/-- A task of a nested step leaves the step around it running. -/
theorem running_of_spawns (nested : task.isNested = true) (apart : task.settles? ≠ some id)
    (spawns : task.Spawns board worker reply after more)
    (running : (board.monitor id).status = .running) :
    (after.monitor id).status = .running ∧ ∀ next ∈ more, next.settles? ≠ some id := by
  cases errand : task.isErrand
  case true =>
    refine ⟨((Task.status_of_isErrand errand spawns).2 id).trans running, ?_⟩
    intro next member
    have body := Task.isBody_of_isErrand (Task.isErrand_of_spawns errand spawns next member)
    simp [Task.settles?_of_isBody body]
  cases spawns with
  | start other command fresh =>
      have different : other ≠ id := by
        rintro rfl
        simp [running, StepStatus.canAdvance] at fresh
      exact ⟨(board.status_update_of_ne _ different).trans running,
        by simpa [Task.settles?] using different⟩
  | enter other command =>
      refine ⟨running, fun next member => ?_⟩
      rcases List.mem_append.mp member with member | member
      · simp [Task.settles?_of_isBody (isBody_of_mem_commandTasks member)]
      · simp only [List.mem_cons, List.not_mem_nil, or_false] at member
        rcases member with rfl | rfl
        · exact apart
        · simp [Task.settles?]
  | nest body =>
      refine ⟨?_, fun next member => ?_⟩
      · rw [board.monitor_addCommands_of_lt body (Board.lt_size_of_running running)]
        exact running
      · simp [Task.settles?_of_isBody (isBody_of_mem_nestedTasks member)]
  | round =>
      refine ⟨running, fun next member => ?_⟩
      simp [Task.settles?_of_isBody (isBody_of_mem_iterationTasks member)]
  | settle other command | settleLeaf other command =>
      have different : other ≠ id := fun same => apart (congrArg some same)
      exact ⟨(board.status_update_of_ne _ different).trans running, by simp [Task.settles?]⟩
  | countUnit | roundsOver | announceWork | leave =>
      exact ⟨running, by simp [Task.settles?]⟩
  | _ => first
    | exact absurd errand.symm Bool.false_ne_true
    | exact absurd nested Bool.false_ne_true

/-- A task brings a step nearer to its end. -/
theorem Settles.of_spawns (settles : Settles board worker.failure id (task :: rest))
    (inBounds : ∀ command, task = .start id command → id < board.monitors.size)
    (spawns : task.Spawns board worker reply after more) :
    Settles after worker.failure id (more ++ rest) := by
  generalize shape : task :: rest = inner at settles
  cases settles with
  | due sound command =>
      obtain ⟨rfl, rfl⟩ := List.cons.inj shape
      cases spawns with
      | start _ _ fresh =>
          refine .started sound ?_ command
          rw [Board.monitor_update_self (inBounds command rfl), Monitor.advance, if_pos fresh]
  | started sound running command =>
      obtain ⟨rfl, rfl⟩ := List.cons.inj shape
      cases spawns with
      | enter =>
          rw [List.append_nil]
          have goesOn : ((board.enter id).monitor id).status = .running := running
          refine .running (fun next => isNested_of_mem_commandTasks) (fun next member => ?_) goesOn
            command
          simp [Task.settles?_of_isBody (isBody_of_mem_commandTasks member)]
  | @running front nested apart running command =>
      cases front with
      | nil =>
          obtain ⟨rfl, rfl⟩ := List.cons.inj shape
          cases spawns with
          | settle => exact .settled (by simp [Task.isAfterword]) (Board.status_settle running _)
          | settleLeaf _ _ sound =>
              refine .settled (by simp [Task.isAfterword]) ?_
              rw [sound]
              exact Board.status_settle running none
      | cons first front =>
          rw [List.cons_append] at shape
          obtain ⟨rfl, rfl⟩ := List.cons.inj shape
          have own := nested task List.mem_cons_self
          obtain ⟨goesOn, others⟩ :=
            running_of_spawns own (apart task List.mem_cons_self) spawns running
          rw [← List.append_assoc]
          refine .running (fun next member => ?_) (fun next member => ?_) goesOn command
          · rcases List.mem_append.mp member with member | member
            · exact Task.isNested_of_spawns own spawns next member
            · exact nested next (List.mem_cons_of_mem _ member)
          · rcases List.mem_append.mp member with member | member
            · exact others next member
            · exact apart next (List.mem_cons_of_mem _ member)
  | settled afterwords status =>
      subst shape
      have own := afterwords task List.mem_cons_self
      have behind : ∀ next ∈ rest, next.isAfterword = true :=
        fun next member => afterwords next (List.mem_cons_of_mem _ member)
      cases spawns with
      | countUnit | announceWork | leave =>
          exact .settled (by simpa [Task.isAfterword] using behind) status
      | _ => exact absurd own Bool.false_ne_true

omit [Scalar α] in
/-- A step whose monitor is idle when it is due is settled after whatever goes wrong. -/
theorem Settles.of_fails (settles : Settles board failure id (task :: rest))
    (idle : ∀ command, task = .start id command →
      (board.monitor id).status.canAdvance .running = true)
    {error : ScanError} (fails : task.Fails board reply error) :
    Settles board (some error) id rest := by
  generalize shape : task :: rest = inner at settles
  cases settles with
  | due sound command =>
      obtain ⟨rfl, rfl⟩ := List.cons.inj shape
      cases fails with
      | refused _ _ used => simp [idle command rfl] at used
  | started sound running command =>
      obtain ⟨rfl, rfl⟩ := List.cons.inj shape
      cases fails
  | @running front nested apart running command =>
      cases front with
      | nil =>
          obtain ⟨rfl, rfl⟩ := List.cons.inj shape
          cases fails
      | cons first front =>
          obtain ⟨rfl, rfl⟩ := List.cons.inj shape
          exact .running (fun next member => nested next (List.mem_cons_of_mem _ member))
            (fun next member => apart next (List.mem_cons_of_mem _ member)) running command
  | settled afterwords =>
      subst shape
      have own := afterwords task List.mem_cons_self
      cases fails <;> exact absurd own Bool.false_ne_true

end Worker

end Scan
