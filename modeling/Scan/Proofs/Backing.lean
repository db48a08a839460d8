import Scan.Proofs.Telling

/-!
# What risky errands are done for

An errand that can fail otherwise than by an abort serves a unit of work: apart from more errands,
what its step does next is to count this unit. So a run that fails stops short of a unit, and a wait
that is given up had the limit of time that belongs to the unit.
-/

namespace Scan

variable {α : Type}

/-! ## Waits -/

/-- The channel that an assignment waits for, if it does, with the limit of the wait. -/
def Completion.polls? (completion : Completion α) : Option (String × Option Duration) :=
  if completion.wait then some (completion.readback, completion.timeout) else none

/-- The channel that a unit of work waits for, if it does, with the limit of the wait. -/
def WorkUnit.polls? : WorkUnit α → Option (String × Option Duration)
  | .leaf (.set _ assignment) => assignment.completion.polls?
  | .leaf (.wait _ condition) => some (condition.channel, condition.timeout)
  | .value sweep _ => sweep.completion.polls?
  | .leaf _ => none

/-- The channel that is waited for once a quantity has a value. -/
def Purpose.polls? : Purpose α → Option (String × Option Duration)
  | .assign assignment => assignment.completion.polls?
  | .await condition => some (condition.channel, condition.timeout)

namespace Task

/-- Whether a task is an errand that can fail otherwise than by an abort, or leads to one. -/
def isRisky : Task α → Bool
  | .resolve .. | .baseline .. | .write .. | .armPoll _ | .probe .. | .checkLimit ..
  | .restPoll .. => true
  | _ => false

/-- Whether a task may be done for a unit of work: if it waits, it waits as the unit does. -/
def Serves (unit : WorkUnit α) : Task α → Prop
  | .resolve _ _ purpose => unit.polls? = purpose.polls?
  | .baseline _ condition _ => unit.polls? = some (condition.channel, condition.timeout)
  | .armPoll poll | .probe poll _ | .restPoll poll _ =>
      unit.polls? = some (poll.channel, poll.limit)
  | .checkLimit poll _ limit =>
      unit.polls? = some (poll.channel, poll.limit) ∧ poll.limit = some limit
  | _ => True

/-- The unit of work that a task counts or that it does nothing but lead to. -/
def earned? : Task α → Option (WorkUnit α)
  | .countUnit _ unit => some unit
  | .settle _ command => if command.isComposite then none else some (.leaf command)
  | _ => none

variable {task : Task α} {unit : WorkUnit α}

/-- A task that earns a unit of work leads to it. -/
theorem units_of_earned? (earned : task.earned? = some unit) : task.units = [unit] := by
  cases task with
  | countUnit =>
      cases earned
      rfl
  | settle id command =>
      rw [earned?] at earned
      split at earned <;> rename_i composite
      · cases earned
      · cases earned
        rw [units, if_neg composite]
  | _ => cases earned

theorem isWord_of_earned? (earned : task.earned? = some unit) : task.isWord = false := by
  cases task <;> first | rfl | cases earned

end Task

namespace Worker

/-- The unit of work that comes next in an agenda, apart from errands. -/
def nextUnit? : List (Task α) → Option (WorkUnit α)
  | [] => none
  | task :: rest => if task.isErrand then nextUnit? rest else task.earned?

/-- An agenda in which every risky errand serves the unit of work behind it. -/
def IsBacked : List (Task α) → Prop
  | [] => True
  | task :: rest =>
      (task.isRisky = true → ∃ unit, nextUnit? rest = some unit ∧ task.Serves unit) ∧
        IsBacked rest

variable {task : Task α} {front rest more inner outer : List (Task α)} {unit : WorkUnit α}

theorem nextUnit?_append (errands : ∀ task ∈ front, task.isErrand = true) :
    nextUnit? (front ++ rest) = nextUnit? rest := by
  induction front with
  | nil => rfl
  | cons task front ih =>
      rw [List.cons_append, nextUnit?, if_pos (errands task List.mem_cons_self)]
      exact ih fun next member => errands next (List.mem_cons_of_mem _ member)

/-- The unit of work that comes next is one that the agenda leads to. -/
theorem mem_units_of_nextUnit? {agenda : List (Task α)} (next : nextUnit? agenda = some unit) :
    unit ∈ agenda.flatMap Task.units := by
  induction agenda with
  | nil => cases next
  | cons task rest ih =>
      rw [List.flatMap_cons, List.mem_append]
      rw [nextUnit?] at next
      split at next
      · exact .inr (ih next)
      · rw [Task.units_of_earned? next]
        exact .inl (List.mem_singleton.mpr rfl)

/-- Errands in front of the unit of work that they serve. -/
theorem IsBacked.append_errands (errands : ∀ task ∈ front, task.isErrand = true)
    (next : nextUnit? rest = some unit)
    (serve : ∀ task ∈ front, task.isRisky = true → task.Serves unit) (backed : IsBacked rest) :
    IsBacked (front ++ rest) := by
  induction front with
  | nil => exact backed
  | cons task front ih =>
      have behind : ∀ other ∈ front, other.isErrand = true :=
        fun other member => errands other (List.mem_cons_of_mem _ member)
      refine ⟨fun risky => ?_, ih behind fun other member => serve other
        (List.mem_cons_of_mem _ member)⟩
      exact ⟨unit, (nextUnit?_append behind).trans next, serve task List.mem_cons_self risky⟩

/-- What carries no risk needs no unit of work. -/
theorem IsBacked.append_safe (safe : ∀ task ∈ front, task.isRisky = false)
    (backed : IsBacked rest) : IsBacked (front ++ rest) := by
  induction front with
  | nil => exact backed
  | cons task front ih =>
      refine ⟨fun risky => ?_, ih fun next member => safe next (List.mem_cons_of_mem _ member)⟩
      rw [safe task List.mem_cons_self] at risky
      cases risky

theorem isRisky_of_mem_nestedTasks {commands : List (Nat × Command α)}
    (member : task ∈ nestedTasks commands) : task.isRisky = false := by
  simp only [nestedTasks, List.mem_flatMap, List.mem_cons, List.not_mem_nil, or_false] at member
  obtain ⟨_, _, rfl | rfl⟩ := member <;> rfl

theorem serves_of_mem_pollTasks {poll : Poll α} (member : task ∈ pollTasks poll)
    (polls : unit.polls? = some (poll.channel, poll.limit)) : task.Serves unit := by
  simp only [pollTasks, List.mem_cons, List.not_mem_nil, or_false] at member
  rcases member with rfl | rfl | rfl | rfl | rfl <;> first | exact polls | exact trivial

theorem serves_of_mem_writeTasks {id : Nat} {channel : String} {completion : Completion α}
    {value : α} (polls : unit.polls? = completion.polls?)
    (member : task ∈ writeTasks id channel completion value) : task.Serves unit := by
  rcases List.mem_cons.mp member with rfl | member
  · exact trivial
  · split at member <;> rename_i waits
    · exact serves_of_mem_pollTasks member (polls.trans (if_pos waits))
    · cases member

theorem serves_of_mem_purposeTasks {id : Nat} {value : α} {purpose : Purpose α}
    (polls : unit.polls? = purpose.polls?) (member : task ∈ purposeTasks id value purpose) :
    task.Serves unit := by
  cases purpose with
  | assign => exact serves_of_mem_writeTasks polls member
  | await =>
      simp only [purposeTasks] at member
      split at member
      · cases List.mem_singleton.mp member
        exact polls
      · exact serves_of_mem_pollTasks member polls

/-- What a step evaluates and waits for serves the unit of work at its end. -/
theorem IsBacked.commandTasks (id : Nat) (command : Command α) (backed : IsBacked rest) :
    IsBacked (Worker.commandTasks id command ++ [Task.settle id command, .leave] ++ rest) := by
  have ending : IsBacked ([Task.settle id command, .leave] ++ rest) :=
    backed.append_safe (by simp [Task.isRisky])
  rw [List.append_assoc]
  cases command with
  | group => exact ending.append_safe fun task => isRisky_of_mem_nestedTasks
  | set | wait =>
      refine ending.append_errands (by simp [Worker.commandTasks, Task.isErrand]) rfl ?_
      intro task member
      cases List.mem_singleton.mp member
      exact fun _ => rfl
  | delay | loop | comment => exact ending.append_safe (by simp [Worker.commandTasks, Task.isRisky])

/-- What a loop writes and waits for serves the unit of work of its value. -/
theorem IsBacked.iterationTasks [Scalar α] (id : Nat) (sweep : Sweep α) (body : List (Command α))
    (iteration : Nat) (backed : IsBacked rest) :
    IsBacked (Worker.iterationTasks id sweep body iteration ++ rest) := by
  rw [Worker.iterationTasks, List.append_assoc]
  apply IsBacked.append_errands _ rfl
  · intro task member risky
    rcases List.mem_append.mp member with member | member
    · cases List.mem_singleton.mp member
      cases risky
    · exact serves_of_mem_writeTasks rfl member
  · exact backed.append_safe (by simp [Task.isRisky])
  · intro task member
    rcases List.mem_append.mp member with member | member
    · cases List.mem_singleton.mp member
      rfl
    · exact isErrand_of_mem_writeTasks member

section Steps

variable [Scalar α] {board after : Board} {worker : Worker α} {reply : Option (Reply α)}

/-- Only risky errands lead to risky errands. -/
theorem isRisky_of_spawns (errand : task.isErrand = true) (safe : task.isRisky = false)
    (spawns : task.Spawns board worker reply after more) :
    ∀ next ∈ more, next.isRisky = false := by
  intro next member
  cases spawns with
  | armDelay | heedAbort | deadlineAhead | delayGoesOn =>
      cases List.mem_singleton.mp member
      rfl
  | _ => first
    | exact absurd safe.symm Bool.false_ne_true
    | exact absurd errand Bool.false_ne_true
    | cases member

/-- A risky errand leads to errands that serve the same unit of work. -/
theorem serves_of_spawns (risky : task.isRisky = true) (serves : task.Serves unit)
    (spawns : task.Spawns board worker reply after more) : ∀ next ∈ more, next.Serves unit := by
  intro next member
  cases spawns with
  | literal | evaluated => exact serves_of_mem_purposeTasks serves member
  | baseline => exact serves_of_mem_pollTasks member serves
  | limited _ _ _ _ _ bounded =>
      cases List.mem_singleton.mp member
      exact ⟨serves, bounded⟩
  | unlimited =>
      cases List.mem_singleton.mp member
      exact serves
  | armPoll | pollGoesOn =>
      simp only [List.mem_cons, List.not_mem_nil, or_false] at member
      rcases member with rfl | rfl
      · exact trivial
      · exact serves
  | withinLimit =>
      cases List.mem_singleton.mp member
      exact serves.1
  | _ => first
    | exact absurd risky Bool.false_ne_true
    | cases member

/-- A task that succeeds leaves a unit of work behind every risky errand. -/
theorem IsBacked.of_spawns (backed : IsBacked (task :: rest))
    (spawns : task.Spawns board worker reply after more) : IsBacked (more ++ rest) := by
  obtain ⟨own, behind⟩ := backed
  cases errand : task.isErrand with
  | true =>
      cases risky : task.isRisky with
      | true =>
          obtain ⟨unit, next, serves⟩ := own risky
          exact behind.append_errands (Task.isErrand_of_spawns errand spawns) next
            fun other member _ => serves_of_spawns risky serves spawns other member
      | false => exact behind.append_safe (isRisky_of_spawns errand risky spawns)
  | false =>
      cases spawns with
      | enter id command => exact behind.commandTasks id command
      | round id sweep body iteration => exact behind.iterationTasks id sweep body iteration
      | nest => exact behind.append_safe fun task => isRisky_of_mem_nestedTasks
      | steps step remaining =>
          cases remaining with
          | nil => exact behind
          | cons => exact behind.append_safe (by simp [stepTasks, Task.isRisky])
      | _ => first
        | exact absurd errand.symm Bool.false_ne_true
        | exact behind.append_safe (by simp [Task.isRisky])

end Steps

/-- A unit of work that an agenda comes to next is counted before anything else is done. -/
theorem one_le_words_of_nextUnit? (next : nextUnit? (inner ++ task :: outer) = some unit)
    (barren : task.earned? = none) (proper : task.isErrand = false) : 1 ≤ words inner := by
  induction inner with
  | nil => simp [nextUnit?, barren, proper] at next
  | cons first inner ih =>
      rw [words_cons]
      rw [List.cons_append, nextUnit?] at next
      split at next
      · have further := ih next
        omega
      · rw [Task.words_of_not_isWord (Task.isWord_of_earned? next), Task.units_of_earned? next,
          List.length_singleton]
        omega

end Worker

/-- As long as a run has not failed there is a unit of work behind every risky errand. -/
theorem Life.isBacked [Scalar α] {others : Board → Board → Prop} {board now : Board}
    {worker current : Worker α} {past : List (Deed α)}
    (life : Life others board worker past now current) (steady : worker.IsSteady)
    (start : Worker.IsBacked worker.agenda) (sound : current.failure = none) :
    Worker.IsBacked current.agenda := by
  induction life with
  | begin => exact start
  | wait _ _ ih => exact ih sound
  | work life agenda stepped ih =>
      cases Worker.outcome_of_step? (life.isSteady steady) agenda stepped with
      | sound before spawns => exact (agenda ▸ ih before).of_spawns spawns
      | broken => cases sound
      | cleaning failed => simp_all

end Scan
