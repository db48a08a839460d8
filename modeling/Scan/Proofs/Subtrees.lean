import Scan.Proofs.Nesting
import Scan.Proofs.Settling

/-!
# What the steps nested in a step come to

The monitors of a step and of the steps nested in it stand side by side, each group before its
children. If nothing goes wrong all of them are completed. If something goes wrong, each group
around the place has children that are completed, then perhaps one that came to the same end, and
then children to which nothing has happened. This is shown task by task, from what has happened to
the nested steps so far.
-/

namespace Scan

variable {α : Type}

/-! ## What the monitors show -/

namespace Board

/-- Whether some monitors in a row all show a status. -/
def Shows (board : Board) (status : StepStatus) (first count : Nat) : Prop :=
  ∀ id, first ≤ id → id < first + count → (board.monitor id).status = status

variable {board after : Board} {status : StepStatus} {first count others id : Nat}

theorem shows_zero (board : Board) (status : StepStatus) (first : Nat) :
    board.Shows status first 0 :=
  fun _ above below => absurd below (by omega)

theorem shows_one : board.Shows status id 1 ↔ (board.monitor id).status = status := by
  refine ⟨fun shows => shows id (Nat.le_refl id) (Nat.lt_succ_self id),
    fun own other above below => ?_⟩
  obtain rfl : other = id := by omega
  exact own

theorem shows_add : board.Shows status first (count + others) ↔
    board.Shows status first count ∧ board.Shows status (first + count) others := by
  refine ⟨fun shows => ⟨fun id above below => shows id above (by omega),
    fun id above below => shows id (by omega) (by omega)⟩, fun ⟨here, there⟩ id above below => ?_⟩
  rcases Nat.lt_or_ge id (first + count) with near | far
  · exact here id above near
  · exact there id far (by omega)

theorem Shows.of_same (shows : board.Shows status first count)
    (same : ∀ id, first ≤ id → id < first + count →
      (after.monitor id).status = (board.monitor id).status) : after.Shows status first count :=
  fun id above below => (same id above below).trans (shows id above below)

end Board

namespace Command

/-- Whether a command is a group, whose children have monitors of their own. -/
def isGroup : Command α → Bool
  | .group .. => true
  | _ => false

variable {command : Command α}

theorem monitorCount_of_plain (plain : command.isGroup = false) : command.monitorCount = 1 := by
  cases command with
  | group => cases plain
  | _ => rfl

mutual

/-- A step that came to its end with a status other than completed: a single step, or a group that
stopped at one of its children. If it was at the safe point before a child, `halt` is the number of
this child. -/
inductive StoppedAt (board : Board) (status : StepStatus) (halt : Option Nat) :
    Nat → Command α → Prop where
  | single {id : Nat} {command : Command α} (plain : command.isGroup = false)
      (own : (board.monitor id).status = status) : StoppedAt board status halt id command
  | group {id : Nat} {description : String} {children : List (Command α)} {work : UInt64}
      (own : (board.monitor id).status = status)
      (among : StoppedAmong board status halt (id + 1) children) :
      StoppedAt board status halt id (.group description children work)

/-- Children of a group that stopped at one of them: the ones before it are completed, it came to
the same end as the group or was not begun, and the ones after it were not begun. -/
inductive StoppedAmong (board : Board) (status : StepStatus) (halt : Option Nat) :
    Nat → List (Command α) → Prop where
  | later {first : Nat} {child : Command α} {rest : List (Command α)}
      (completed : board.Shows .completed first child.monitorCount)
      (among : StoppedAmong board status halt (first + child.monitorCount) rest) :
      StoppedAmong board status halt first (child :: rest)
  | within {first : Nat} {child : Command α} {rest : List (Command α)}
      (stopped : StoppedAt board status halt first child)
      (idle : board.Shows .idle (first + child.monitorCount) (monitorCounts rest)) :
      StoppedAmong board status halt first (child :: rest)
  | before {first : Nat} {child : Command α} {rest : List (Command α)}
      (halted : halt = some first)
      (idle : board.Shows .idle first (child.monitorCount + monitorCounts rest)) :
      StoppedAmong board status halt first (child :: rest)

end

variable {board after : Board} {status : StepStatus} {halt : Option Nat} {id first : Nat}
variable {children : List (Command α)}

theorem StoppedAt.own (stopped : command.StoppedAt board status halt id) :
    (board.monitor id).status = status := by
  cases stopped with
  | single _ own | group own => exact own

mutual

/-- How a step ended is seen from its own monitors and those of the steps nested in it. -/
theorem StoppedAt.of_same {id : Nat} {command : Command α} :
    command.StoppedAt board status halt id →
    (∀ other, id ≤ other → other < id + command.monitorCount →
      (after.monitor other).status = (board.monitor other).status) →
    command.StoppedAt after status halt id
  | .single plain own, same =>
      .single plain ((same id (Nat.le_refl id) (by rw [monitorCount_of_plain plain]; omega)).trans
        own)
  | .group own among, same => by
      rw [monitorCount] at same
      exact .group ((same id (Nat.le_refl id) (by omega)).trans own)
        (among.of_same fun other above below => same other (by omega) (by omega))

theorem StoppedAmong.of_same {first : Nat} {children : List (Command α)} :
    StoppedAmong board status halt first children →
    (∀ other, first ≤ other → other < first + monitorCounts children →
      (after.monitor other).status = (board.monitor other).status) →
    StoppedAmong after status halt first children
  | .later completed among, same => by
      rw [monitorCounts] at same
      exact .later (completed.of_same fun other above below => same other above (by omega))
        (among.of_same fun other above below => same other (by omega) (by omega))
  | .within stopped idle, same => by
      rw [monitorCounts] at same
      exact .within (stopped.of_same fun other above below => same other above (by omega))
        (idle.of_same fun other above below => same other (by omega) (by omega))
  | .before halted idle, same => by
      rw [monitorCounts] at same
      exact .before halted (idle.of_same fun other above below => same other above (by omega))

end

end Command

/-! ## Tasks that concern no step of the tree -/

namespace Task

/-- The step that a task starts, enters or settles. -/
def concerns? : Task α → Option Nat
  | .start id _ | .enter id _ | .settle id _ => some id
  | _ => none

/-- Whether a task belongs to a single step and concerns none whose number is below a limit: it may
concern a copy of a step that was made for the body of a loop. -/
def IsBeyond (limit : Nat) (task : Task α) : Prop :=
  task.isNested = true ∧ ∀ id, task.concerns? = some id → limit ≤ id

variable {task : Task α} {limit : Nat}

theorem isBeyond_of_isErrand (errand : task.isErrand = true) : task.IsBeyond limit := by
  refine ⟨isNested_of_isErrand errand, fun id concerns => ?_⟩
  cases task <;> first | exact absurd errand Bool.false_ne_true | cases concerns

end Task

namespace Worker

variable {task : Task α} {limit id first : Nat} {command : Command α}

theorem isBeyond_of_mem_nestedTasks {commands : List (Command α)} (beyond : limit ≤ first)
    (member : task ∈ nestedTasks (Board.numbered first commands)) : task.IsBeyond limit := by
  induction commands generalizing first with
  | nil => cases member
  | cons command rest ih =>
      rw [Board.numbered, nestedTasks_cons] at member
      rcases List.mem_cons.mp member with rfl | member
      · exact Task.isBeyond_of_isErrand rfl
      · rcases List.mem_cons.mp member with rfl | member
        · exact ⟨rfl, fun id concerns => by cases concerns; exact beyond⟩
        · exact ih (by omega) member

/-- The tasks of a command that is no group concern no other step. -/
theorem isBeyond_of_mem_commandTasks (plain : command.isGroup = false)
    (member : task ∈ commandTasks id command) : task.IsBeyond limit := by
  cases command with
  | group => cases plain
  | comment => cases member
  | loop =>
      cases List.mem_singleton.mp member
      exact ⟨rfl, fun id concerns => by cases concerns⟩
  | delay | set | wait =>
      apply Task.isBeyond_of_isErrand
      simp only [commandTasks, List.mem_cons, List.not_mem_nil, or_false] at member
      rcases member with rfl | rfl | rfl | rfl | rfl <;> rfl

theorem isBeyond_of_mem_iterationTasks [Scalar α] {sweep : Sweep α} {body : List (Command α)}
    {iteration : Nat} (member : task ∈ iterationTasks id sweep body iteration) :
    task.IsBeyond limit := by
  simp only [iterationTasks, List.mem_append, List.mem_cons, List.not_mem_nil, or_false] at member
  rcases member with (rfl | member) | rfl | rfl | rfl
  · exact Task.isBeyond_of_isErrand rfl
  · exact Task.isBeyond_of_isErrand (isErrand_of_mem_writeTasks member)
  all_goals exact ⟨rfl, fun id concerns => by cases concerns⟩

end Worker

section Spawning

variable [Scalar α] {board after : Board} {worker : Worker α} {task : Task α} {limit : Nat}
variable {more : List (Task α)} {reply : Option (Reply α)}

/-- A task of a single step changes no status but that of the step that it concerns. -/
theorem Task.status_of_isNested (nested : task.isNested = true)
    (spawns : task.Spawns board worker reply after more) {other : Nat}
    (old : other < board.monitors.size) (apart : task.concerns? ≠ some other) :
    (after.monitor other).status = (board.monitor other).status := by
  cases errand : task.isErrand
  case true => exact (Task.status_of_isErrand errand spawns).2 other
  cases spawns with
  | start id | settle id | settleLeaf id =>
      exact board.status_update_of_ne _ fun same => apart (congrArg some same)
  | nest body => rw [board.monitor_addCommands_of_lt body old]
  | enter | round | roundsOver | countUnit | announceWork | leave => rfl
  | _ => first
    | exact absurd errand.symm Bool.false_ne_true
    | exact absurd nested Bool.false_ne_true

/-- What concerns no step below a limit leads to nothing else, as new monitors come behind it. -/
theorem Task.IsBeyond.of_spawns (beyond : task.IsBeyond limit)
    (spawns : task.Spawns board worker reply after more) (bound : limit ≤ board.monitors.size) :
    ∀ next ∈ more, next.IsBeyond limit := by
  intro next member
  obtain ⟨nested, own⟩ := beyond
  refine ⟨Task.isNested_of_spawns nested spawns next member, ?_⟩
  cases errand : task.isErrand
  case true =>
    exact (Task.isBeyond_of_isErrand (Task.isErrand_of_spawns errand spawns next member)).2
  cases spawns with
  | start id command =>
      cases List.mem_singleton.mp member
      exact own
  | enter id command =>
      have above := own id rfl
      rcases List.mem_append.mp member with member | member
      · cases group : command.isGroup with
        | false => exact (Worker.isBeyond_of_mem_commandTasks group member).2
        | true =>
            cases command with
            | group => exact (Worker.isBeyond_of_mem_nestedTasks (by omega) member).2
            | _ => cases group
      · simp only [List.mem_cons, List.not_mem_nil, or_false] at member
        rcases member with rfl | rfl
        · exact own
        · exact fun id concerns => by cases concerns
  | nest body => exact (Worker.isBeyond_of_mem_nestedTasks bound member).2
  | round => exact (Worker.isBeyond_of_mem_iterationTasks member).2
  | countUnit | settleLeaf =>
      cases List.mem_singleton.mp member
      exact fun id concerns => by cases concerns
  | _ => first
    | exact absurd errand.symm Bool.false_ne_true
    | exact absurd nested Bool.false_ne_true
    | cases member

end Spawning

/-! ## How a step fares -/

namespace Worker

/-- What is left of some tasks: after an error, what cleans up. -/
def tidied (failure : Option ScanError) (tasks : List (Task α)) : List (Task α) :=
  if failure.isSome then unwind tasks else tasks

mutual

/-- How far a step with the steps nested in it has come, by the tasks in front that belong to it.
The monitors of all of them are below a limit. -/
inductive Fares (board : Board) (limit : Nat) (failure : Option ScanError) (halt : Option Nat) :
    Nat → Command α → List (Task α) → Prop where
  | due {id : Nat} {command : Command α} (sound : failure = none)
      (idle : board.Shows .idle id command.monitorCount) :
      Fares board limit failure halt id command [.start id command]
  | started {id : Nat} {command : Command α} (sound : failure = none)
      (running : (board.monitor id).status = .running)
      (idle : board.Shows .idle (id + 1) (command.monitorCount - 1)) :
      Fares board limit failure halt id command [.enter id command]
  | single {id : Nat} {command : Command α} {front : List (Task α)}
      (plain : command.isGroup = false) (running : (board.monitor id).status = .running)
      (beyond : ∀ task ∈ front, task.IsBeyond limit) :
      Fares board limit failure halt id command (front ++ [.settle id command, .leave])
  | group {id : Nat} {description : String} {children : List (Command α)} {work : UInt64}
      {front : List (Task α)} (running : (board.monitor id).status = .running)
      (among : FaresAmong board limit failure halt (id + 1) children front) :
      Fares board limit failure halt id (.group description children work)
        (front ++ [.settle id (.group description children work), .leave])
  | completed {id : Nat} {command : Command α} {front : List (Task α)} (sound : failure = none)
      (afterwords : ∀ task ∈ front, task.isAfterword = true)
      (completed : board.Shows .completed id command.monitorCount) :
      Fares board limit failure halt id command front
  | stopped {id : Nat} {command : Command α} {front : List (Task α)}
      (failed : failure.isSome = true) (afterwords : ∀ task ∈ front, task.isAfterword = true)
      (stopped : command.StoppedAt board (finalStatus failure) halt id) :
      Fares board limit failure halt id command front

/-- How far the children of a group have come. -/
inductive FaresAmong (board : Board) (limit : Nat) (failure : Option ScanError)
    (halt : Option Nat) : Nat → List (Command α) → List (Task α) → Prop where
  | ahead {first : Nat} {children : List (Command α)} (sound : failure = none)
      (idle : board.Shows .idle first (Command.monitorCounts children)) :
      FaresAmong board limit failure halt first children
        (nestedTasks (Board.numbered first children))
  | later {first : Nat} {child : Command α} {rest : List (Command α)} {front : List (Task α)}
      (completed : board.Shows .completed first child.monitorCount)
      (among : FaresAmong board limit failure halt (first + child.monitorCount) rest front) :
      FaresAmong board limit failure halt first (child :: rest) front
  | within {first : Nat} {child : Command α} {rest : List (Command α)} {front : List (Task α)}
      (busy : front ≠ []) (fares : Fares board limit failure halt first child front)
      (idle : board.Shows .idle (first + child.monitorCount) (Command.monitorCounts rest)) :
      FaresAmong board limit failure halt first (child :: rest)
        (front ++ nestedTasks (Board.numbered (first + child.monitorCount) rest))
  | stopped {first : Nat} {children : List (Command α)} (failed : failure.isSome = true)
      (stopped : Command.StoppedAmong board (finalStatus failure) halt first children) :
      FaresAmong board limit failure halt first children []

end

variable {board after : Board} {limit : Nat} {failure : Option ScanError} {halt : Option Nat}
variable {id first : Nat} {command : Command α} {children : List (Command α)}
variable {front : List (Task α)}

mutual

/-- How a step fares is seen from its own monitors and those of the steps nested in it. -/
theorem Fares.of_same {id : Nat} {command : Command α} {front : List (Task α)} :
    Fares board limit failure halt id command front →
    (∀ other, id ≤ other → other < id + command.monitorCount →
      (after.monitor other).status = (board.monitor other).status) →
    Fares after limit failure halt id command front
  | .due sound idle, same => .due sound (idle.of_same same)
  | .started sound running idle, same => by
      have one := command.one_le_monitorCount
      exact .started sound ((same id (Nat.le_refl id) (by omega)).trans running)
        (idle.of_same fun other above below => same other (by omega) (by omega))
  | .single plain running beyond, same => by
      have one := command.one_le_monitorCount
      exact .single plain ((same id (Nat.le_refl id) (by omega)).trans running) beyond
  | .group running among, same => by
      rw [Command.monitorCount] at same
      exact .group ((same id (Nat.le_refl id) (by omega)).trans running)
        (among.of_same fun other above below => same other (by omega) (by omega))
  | .completed sound afterwords completed, same =>
      .completed sound afterwords (completed.of_same same)
  | .stopped failed afterwords stopped, same =>
      .stopped failed afterwords (stopped.of_same same)

theorem FaresAmong.of_same {first : Nat} {children : List (Command α)} {front : List (Task α)} :
    FaresAmong board limit failure halt first children front →
    (∀ other, first ≤ other → other < first + Command.monitorCounts children →
      (after.monitor other).status = (board.monitor other).status) →
    FaresAmong after limit failure halt first children front
  | .ahead sound idle, same => .ahead sound (idle.of_same same)
  | .later completed among, same => by
      rw [Command.monitorCounts] at same
      exact .later (completed.of_same fun other above below => same other above (by omega))
        (among.of_same fun other above below => same other (by omega) (by omega))
  | .within busy fares idle, same => by
      rw [Command.monitorCounts] at same
      exact .within busy (fares.of_same fun other above below => same other above (by omega))
        (idle.of_same fun other above below => same other (by omega) (by omega))
  | .stopped failed stopped, same => .stopped failed (stopped.of_same same)

end

/-- What a step with nothing left to do came to. -/
theorem Fares.of_nil (fares : Fares board limit failure halt id command []) :
    failure = none ∧ board.Shows .completed id command.monitorCount ∨
      failure.isSome = true ∧ command.StoppedAt board (finalStatus failure) halt id := by
  generalize shape : ([] : List (Task α)) = front at fares
  cases fares with
  | due | started => cases shape
  | single | group => simp at shape
  | completed sound _ completed => exact .inl ⟨sound, completed⟩
  | stopped failed _ stopped => exact .inr ⟨failed, stopped⟩

/-- What children with nothing left to do came to. -/
theorem FaresAmong.of_nil (among : FaresAmong board limit failure halt first children []) :
    failure = none ∧ board.Shows .completed first (Command.monitorCounts children) ∨
      failure.isSome = true ∧
        Command.StoppedAmong board (finalStatus failure) halt first children := by
  induction children generalizing first with
  | nil =>
      generalize shape : ([] : List (Task α)) = front at among
      cases among with
      | ahead sound => exact .inl ⟨sound, board.shows_zero _ _⟩
      | stopped failed stopped => exact .inr ⟨failed, stopped⟩
  | cons child rest ih =>
      generalize shape : ([] : List (Task α)) = front at among
      cases among with
      | ahead => simp [Board.numbered] at shape
      | within busy => simp [busy] at shape
      | stopped failed stopped => exact .inr ⟨failed, stopped⟩
      | later completed among =>
          subst shape
          rcases ih among with ⟨sound, others⟩ | ⟨failed, stopped⟩
          · exact .inl ⟨sound, Board.shows_add.mpr ⟨completed, others⟩⟩
          · exact .inr ⟨failed, .later completed stopped⟩

@[simp] theorem tidied_none (tasks : List (Task α)) : tidied none tasks = tasks := rfl

@[simp] theorem tidied_some (error : ScanError) (tasks : List (Task α)) :
    tidied (some error) tasks = unwind tasks := rfl

/-- The tasks that settle a step are kept after an error. -/
theorem tidied_append_settle (front : List (Task α)) (rest : List (Task α)) :
    tidied failure (front ++ .settle id command :: rest) =
      tidied failure front ++ .settle id command :: rest := by
  cases failure with
  | none => rfl
  | some => exact unwind_append_cons rfl front rest

/-- Steps that were not begun are given up after an error. -/
theorem unwind_nestedTasks (commands : List (Nat × Command α)) :
    unwind (nestedTasks commands) = [] := by
  induction commands with
  | nil => rfl
  | cons pair rest ih =>
      obtain ⟨id, command⟩ := pair
      rw [nestedTasks_cons, unwind_cons_of_not_cleansUp rfl, unwind_cons_of_not_cleansUp rfl, ih]

/-- The children of a group fare as the one in progress does. -/
theorem Fares.among {child : Command α} {rest : List (Command α)}
    (fares : Fares board limit failure halt first child (tidied failure front))
    (idle : board.Shows .idle (first + child.monitorCount) (Command.monitorCounts rest)) :
    FaresAmong board limit failure halt first (child :: rest) (tidied failure
      (front ++ nestedTasks (Board.numbered (first + child.monitorCount) rest))) := by
  cases failure with
  | none =>
      simp only [tidied_none] at *
      by_cases nothing : front = []
      · subst nothing
        rcases fares.of_nil with ⟨-, completed⟩ | ⟨failed, -⟩
        · exact .later completed (.ahead rfl idle)
        · cases failed
      · exact .within nothing fares idle
  | some error =>
      simp only [tidied_some, unwind_append] at *
      split
      · rename_i nothing
        rw [nothing] at fares
        rw [unwind_nestedTasks]
        rcases fares.of_nil with ⟨sound, -⟩ | ⟨failed, stopped⟩
        · cases sound
        · exact .stopped failed (.within stopped idle)
      · rename_i busy
        exact .within busy fares idle

theorem mem_of_mem_tidied {tasks : List (Task α)} {task : Task α}
    (member : task ∈ tidied failure tasks) : task ∈ tasks := by
  cases failure with
  | none => exact member
  | some => exact (unwind_suffix tasks).mem member

end Worker

/-- Whether all statuses below a limit are as they were, apart from those of some monitors in a
row. -/
def Board.KeepsOutside (board after : Board) (limit first count : Nat) : Prop :=
  ∀ id, id < limit → id < first ∨ first + count ≤ id →
    (after.monitor id).status = (board.monitor id).status

section Steps

variable [Scalar α] {board after : Board} {worker : Worker α} {task : Task α} {limit id : Nat}
variable {more rest : List (Task α)} {reply : Option (Reply α)} {halt : Option Nat}
variable {command : Command α}

/-- What follows up on a step leaves the monitors alone. -/
theorem Task.of_isAfterword (afterword : task.isAfterword = true)
    (spawns : task.Spawns board worker reply after more) :
    after.monitors = board.monitors ∧ ∀ next ∈ more, next.isAfterword = true := by
  cases spawns with
  | countUnit | announceWork | leave => exact ⟨rfl, by simp [Task.isAfterword]⟩
  | _ => exact absurd afterword Bool.false_ne_true

namespace Worker

/-- A step that is due is started. -/
theorem fares_of_start (sound : worker.failure = none)
    (idle : board.Shows .idle id command.monitorCount) (fits : id < board.monitors.size)
    (spawns : (Task.start id command).Spawns board worker reply after more) :
    Fares after limit worker.failure halt id command (tidied worker.failure (more ++ [])) ∧
      board.KeepsOutside after limit id command.monitorCount := by
  have one := command.one_le_monitorCount
  cases spawns with
  | start _ _ fresh =>
      refine ⟨?_, fun other _ outside => board.status_update_of_ne _ (by omega)⟩
      rw [sound]
      refine .started rfl ?_ fun other above below => ?_
      · rw [Board.monitor_update_self fits, Monitor.advance, if_pos fresh]
      · rw [board.status_update_of_ne _ (by omega)]
        exact idle other (by omega) (by omega)

/-- A step that has been started is entered: what comes next are its children if it is a group. -/
theorem fares_of_enter (sound : worker.failure = none)
    (running : (board.monitor id).status = .running)
    (idle : board.Shows .idle (id + 1) (command.monitorCount - 1))
    (spawns : (Task.enter id command).Spawns board worker reply after more) :
    Fares after limit worker.failure halt id command (tidied worker.failure (more ++ [])) ∧
      board.KeepsOutside after limit id command.monitorCount := by
  cases spawns with
  | enter =>
      refine ⟨?_, fun _ _ _ => rfl⟩
      rw [sound, tidied_none, List.append_nil]
      cases group : command.isGroup with
      | false => exact .single group running fun task => isBeyond_of_mem_commandTasks group
      | true =>
          cases command with
          | group _ children _ =>
              rw [Command.monitorCount, Nat.add_sub_cancel_left] at idle
              exact .group running (.ahead rfl idle)
          | _ => cases group

/-- A step without children is settled. -/
theorem fares_of_settle_single (plain : command.isGroup = false)
    (running : (board.monitor id).status = .running)
    (spawns : (Task.settle id command).Spawns board worker reply after more) :
    Fares after limit worker.failure halt id command (tidied worker.failure (more ++ [.leave])) ∧
      board.KeepsOutside after limit id command.monitorCount := by
  have one := Command.monitorCount_of_plain plain
  have keeps : ∀ status, board.KeepsOutside (board.update id (·.advance status)) limit id
      command.monitorCount :=
    fun status other _ outside => board.status_update_of_ne _ (by omega)
  cases spawns with
  | settleLeaf _ _ sound =>
      refine ⟨.completed sound (fun task member => ?_) ?_, keeps _⟩
      · simp only [sound, tidied_none, List.cons_append, List.nil_append, List.mem_cons,
          List.not_mem_nil, or_false] at member
        rcases member with rfl | rfl <;> rfl
      · rw [one, Board.shows_one]
        exact Board.status_settle running none
  | settle =>
      have afterwords : ∀ task ∈ tidied worker.failure ([] ++ [.leave] : List (Task α)),
          task.isAfterword = true := fun task member => by
        cases List.mem_singleton.mp (mem_of_mem_tidied member)
        rfl
      have own := Board.status_settle running worker.failure
      cases failure : worker.failure with
      | none =>
          rw [failure] at own afterwords
          refine ⟨.completed rfl afterwords ?_, keeps _⟩
          rw [one, Board.shows_one]
          exact own
      | some error =>
          rw [failure] at own afterwords
          exact ⟨.stopped rfl afterwords (.single plain own), keeps _⟩

/-- A group is settled when nothing is left of its children. -/
theorem fares_of_settle_group {description : String} {children : List (Command α)} {work : UInt64}
    (running : (board.monitor id).status = .running)
    (among : FaresAmong board limit worker.failure halt (id + 1) children [])
    (spawns : (Task.settle id (.group description children work)).Spawns board worker reply after
      more) :
    Fares after limit worker.failure halt id (.group description children work)
        (tidied worker.failure (more ++ [.leave])) ∧
      board.KeepsOutside after limit id (Command.group description children work).monitorCount := by
  rw [Command.monitorCount]
  cases spawns with
  | settleLeaf _ _ _ leaf => cases leaf
  | settle =>
      have afterwords : ∀ task ∈ tidied worker.failure ([] ++ [.leave] : List (Task α)),
          task.isAfterword = true := fun task member => by
        cases List.mem_singleton.mp (mem_of_mem_tidied member)
        rfl
      have own := Board.status_settle running worker.failure
      have nested : ∀ other, id + 1 ≤ other → other < id + 1 + Command.monitorCounts children →
          ((board.update id (·.advance (finalStatus worker.failure))).monitor other).status =
            (board.monitor other).status :=
        fun other above _ => board.status_update_of_ne _ (by omega)
      refine ⟨?_, fun other _ outside => board.status_update_of_ne _ (by omega)⟩
      rcases among.of_nil with ⟨sound, completed⟩ | ⟨failed, stopped⟩
      · refine .completed sound afterwords ?_
        rw [sound] at own nested ⊢
        rw [Command.monitorCount, Board.shows_add, Board.shows_one]
        exact ⟨own, completed.of_same nested⟩
      · exact .stopped failed afterwords (.group own (stopped.of_same nested))

/-- What belongs to a step without children leads to more of that. -/
theorem fares_of_front {front : List (Task α)} (plain : command.isGroup = false)
    (running : (board.monitor id).status = .running) (fits : id + command.monitorCount ≤ limit)
    (bound : limit ≤ board.monitors.size) (own : task.IsBeyond limit)
    (beyond : ∀ task ∈ front, task.IsBeyond limit)
    (spawns : task.Spawns board worker reply after more) :
    Fares after limit worker.failure halt id command
        (tidied worker.failure (more ++ (front ++ [.settle id command, .leave]))) ∧
      board.KeepsOutside after limit id command.monitorCount := by
  have one := Command.monitorCount_of_plain plain
  have keeps : ∀ other, other < limit →
      (after.monitor other).status = (board.monitor other).status := fun other below =>
    Task.status_of_isNested own.1 spawns (by omega) fun concerns =>
      absurd (own.2 other concerns) (by omega)
  refine ⟨?_, fun other below _ => keeps other below⟩
  rw [← List.append_assoc, tidied_append_settle]
  refine .single plain ((keeps id (by omega)).trans running) fun next member => ?_
  rcases List.mem_append.mp (mem_of_mem_tidied member) with member | member
  · exact own.of_spawns spawns bound next member
  · exact beyond next member

/-- What follows up on a step changes nothing about how it ended. -/
theorem fares_of_afterword (afterwords : ∀ next ∈ task :: rest, next.isAfterword = true)
    (spawns : task.Spawns board worker reply after more) :
    (∀ next ∈ tidied worker.failure (more ++ rest), next.isAfterword = true) ∧
      ∀ other, (after.monitor other).status = (board.monitor other).status := by
  obtain ⟨own, behind⟩ := List.forall_mem_cons.mp afterwords
  obtain ⟨same, others⟩ := Task.of_isAfterword own spawns
  refine ⟨fun next member => ?_, fun other => by rw [Board.monitor, same, Board.monitor]⟩
  exact (List.mem_append.mp (mem_of_mem_tidied member)).elim (others next) (behind next)

mutual

/-- A task that succeeds brings a step further, and concerns no other step. -/
theorem Fares.of_spawns (spawns : task.Spawns board worker reply after more)
    (bound : limit ≤ board.monitors.size) {id : Nat} {command : Command α}
    {front rest : List (Task α)} :
    Fares board limit worker.failure halt id command front →
    id + command.monitorCount ≤ limit → front = task :: rest →
    Fares after limit worker.failure halt id command (tidied worker.failure (more ++ rest)) ∧
      board.KeepsOutside after limit id command.monitorCount
  | .due sound idle, fits, shape => by
      obtain ⟨rfl, rfl⟩ := List.cons.inj shape
      have one := command.one_le_monitorCount
      exact fares_of_start sound idle (by omega) spawns
  | .started sound running idle, _, shape => by
      obtain ⟨rfl, rfl⟩ := List.cons.inj shape
      exact fares_of_enter sound running idle spawns
  | @Fares.single _ _ _ _ _ _ _ front plain running beyond, fits, shape => by
      cases front with
      | nil =>
          obtain ⟨rfl, rfl⟩ := List.cons.inj shape
          exact fares_of_settle_single plain running spawns
      | cons first front =>
          obtain ⟨rfl, rfl⟩ := List.cons.inj shape
          obtain ⟨own, beyond⟩ := List.forall_mem_cons.mp beyond
          exact fares_of_front plain running fits bound own beyond spawns
  | @Fares.group _ _ _ _ _ id description children work front running among, fits, shape => by
      rw [Command.monitorCount] at fits ⊢
      cases front with
      | nil =>
          obtain ⟨rfl, rfl⟩ := List.cons.inj shape
          exact fares_of_settle_group running among spawns
      | cons first front =>
          rw [List.cons_append] at shape
          obtain ⟨rfl, rfl⟩ := List.cons.inj shape.symm
          obtain ⟨among, keeps⟩ := among.of_spawns spawns bound (by omega) rfl
          refine ⟨?_, fun other below outside => keeps other below (by omega)⟩
          rw [← List.append_assoc, tidied_append_settle]
          exact .group ((keeps id (by omega) (by omega)).trans running) among
  | .completed sound afterwords completed, _, shape => by
      subst shape
      obtain ⟨follow, same⟩ := fares_of_afterword afterwords spawns
      exact ⟨.completed sound follow (completed.of_same fun other _ _ => same other),
        fun other _ _ => same other⟩
  | .stopped failed afterwords stopped, _, shape => by
      subst shape
      obtain ⟨follow, same⟩ := fares_of_afterword afterwords spawns
      exact ⟨.stopped failed follow (stopped.of_same fun other _ _ => same other),
        fun other _ _ => same other⟩

theorem FaresAmong.of_spawns (spawns : task.Spawns board worker reply after more)
    (bound : limit ≤ board.monitors.size) {first : Nat} {children : List (Command α)}
    {front rest : List (Task α)} :
    FaresAmong board limit worker.failure halt first children front →
    first + Command.monitorCounts children ≤ limit → front = task :: rest →
    FaresAmong after limit worker.failure halt first children
        (tidied worker.failure (more ++ rest)) ∧
      board.KeepsOutside after limit first (Command.monitorCounts children)
  | @FaresAmong.ahead _ _ _ _ _ first children sound idle, _, shape => by
      cases children with
      | nil => cases shape
      | cons child others =>
          rw [Board.numbered, nestedTasks_cons] at shape
          obtain ⟨rfl, rfl⟩ := List.cons.inj shape
          rw [Command.monitorCounts, Board.shows_add] at idle
          cases spawns with
          | safePoint =>
              refine ⟨?_, fun _ _ _ => rfl⟩
              rw [sound, tidied_none]
              exact .within (List.cons_ne_nil _ []) (.due rfl idle.1) idle.2
  | .later completed among, fits, shape => by
      rw [Command.monitorCounts] at fits ⊢
      obtain ⟨among, keeps⟩ := among.of_spawns spawns bound (by omega) shape
      have before := completed.of_same fun other _ below => keeps other (by omega) (by omega)
      exact ⟨.later before among, fun other below outside => keeps other below (by omega)⟩
  | @FaresAmong.within _ _ _ _ _ _ _ _ front busy fares idle, fits, shape => by
      rw [Command.monitorCounts] at fits ⊢
      cases front with
      | nil => exact absurd rfl busy
      | cons next front =>
          rw [List.cons_append] at shape
          obtain ⟨rfl, rfl⟩ := List.cons.inj shape.symm
          obtain ⟨fares, keeps⟩ := fares.of_spawns spawns bound (by omega) rfl
          rw [← List.append_assoc]
          exact ⟨fares.among (idle.of_same fun other _ below => keeps other (by omega) (by omega)),
            fun other below outside => keeps other below (by omega)⟩
  | .stopped .., _, shape => by cases shape

end

end Worker

end Steps

section Failing

variable {board : Board} {task : Task α} {limit : Nat} {reply : Option (Reply α)}

namespace Worker

/-- Nothing that follows up on a step fails. -/
theorem not_fails_of_isAfterword {error : ScanError} (afterword : task.isAfterword = true) :
    ¬ task.Fails board reply error := by
  intro fails
  cases fails <;> cases afterword

mutual

/-- A task that fails leaves a step to be settled: the next thing that is done for it cleans up. If
the task is at the safe point before a step of the tree, this step is where it stopped. -/
theorem Fares.of_fails {error : ScanError} (fails : task.Fails board reply error) {id : Nat}
    {command : Command α} {front rest : List (Task α)} :
    Fares board limit none none id command front → front = task :: rest →
    ∃ halt, Fares board limit (some error) halt id command (unwind rest) ∧
      ∀ child, halt = some child → task = .safePoint ∧
        ∃ command behind, rest = .start child command :: behind
  | .due _ idle, shape => by
      obtain ⟨rfl, rfl⟩ := List.cons.inj shape
      cases fails with
      | refused id command used =>
          have one := command.one_le_monitorCount
          rw [idle id (Nat.le_refl id) (by omega)] at used
          cases used
  | .started .., shape => by
      obtain ⟨rfl, rfl⟩ := List.cons.inj shape
      cases fails
  | @Fares.single _ _ _ _ _ _ command front plain running beyond, shape => by
      refine ⟨none, ?_, fun child halted => by cases halted⟩
      cases front with
      | nil =>
          obtain ⟨rfl, rfl⟩ := List.cons.inj shape
          cases fails
      | cons first front =>
          rw [List.cons_append] at shape
          obtain ⟨rfl, rfl⟩ := List.cons.inj shape.symm
          rw [unwind_append_cons rfl]
          exact .single plain running fun next member =>
            beyond next (List.mem_cons_of_mem _ ((unwind_suffix front).mem member))
  | @Fares.group _ _ _ _ _ id description children work front running among, shape => by
      cases front with
      | nil =>
          obtain ⟨rfl, rfl⟩ := List.cons.inj shape
          cases fails
      | cons first front =>
          rw [List.cons_append] at shape
          obtain ⟨rfl, rfl⟩ := List.cons.inj shape.symm
          obtain ⟨halt, among, point⟩ := among.of_fails fails rfl
          refine ⟨halt, ?_, fun child halted => ?_⟩
          · rw [unwind_append_cons rfl]
            exact .group running among
          · obtain ⟨safe, command, behind, rfl⟩ := point child halted
            exact ⟨safe, command, _, rfl⟩
  | .completed _ afterwords _, shape => by
      subst shape
      exact absurd fails (not_fails_of_isAfterword (afterwords task List.mem_cons_self))
  | .stopped failed .., _ => by cases failed

theorem FaresAmong.of_fails {error : ScanError} (fails : task.Fails board reply error)
    {first : Nat} {children : List (Command α)} {front rest : List (Task α)} :
    FaresAmong board limit none none first children front → front = task :: rest →
    ∃ halt, FaresAmong board limit (some error) halt first children (unwind rest) ∧
      ∀ child, halt = some child → task = .safePoint ∧
        ∃ command behind, rest = .start child command :: behind
  | @FaresAmong.ahead _ _ _ _ _ first children _ idle, shape => by
      cases children with
      | nil => cases shape
      | cons child others =>
          rw [Board.numbered, nestedTasks_cons] at shape
          obtain ⟨rfl, rfl⟩ := List.cons.inj shape
          rw [Command.monitorCounts] at idle
          refine ⟨some first, ?_, fun child halted => ?_⟩
          · rw [unwind_cons_of_not_cleansUp rfl, unwind_nestedTasks]
            exact .stopped rfl (.before rfl idle)
          · cases halted
            exact ⟨rfl, _, _, rfl⟩
  | .later completed among, shape => by
      obtain ⟨halt, among, point⟩ := among.of_fails fails shape
      exact ⟨halt, .later completed among, point⟩
  | @FaresAmong.within _ _ _ _ _ _ _ _ front busy fares idle, shape => by
      cases front with
      | nil => exact absurd rfl busy
      | cons next front =>
          rw [List.cons_append] at shape
          obtain ⟨rfl, rfl⟩ := List.cons.inj shape.symm
          obtain ⟨halt, fares, point⟩ := fares.of_fails fails rfl
          refine ⟨halt, fares.among idle, fun child halted => ?_⟩
          obtain ⟨safe, command, behind, rfl⟩ := point child halted
          exact ⟨safe, command, _, rfl⟩
  | .stopped failed _, _ => by cases failed

end

end Worker

end Failing

end Scan
