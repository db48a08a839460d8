import Scan.Proofs.Events
import Scan.Proofs.Settling

/-!
# What is told within a step

Within a top-level step a run tells of its units of work, one after another: each unit is counted
on the board, and the next task of the worker is to tell the count. So what has been told and what
is still to be told make up the work of the step, and only an error cuts it short.
-/

namespace Scan

variable {α : Type}

namespace Event

/-- The words that some units of work are done, after `count` others. -/
def works (total : UInt64) (count units : Nat) : List Event :=
  (List.range' (count + 1) units).map fun performed => .workPerformed (.ofNat performed) total

variable (total : UInt64) (count units : Nat)

theorem works_concat : works total count (units + 1) =
    works total count units ++ [Event.workPerformed (.ofNat (count + units + 1)) total] := by
  rw [works, List.range'_1_concat, List.map_append, works, Nat.add_right_comm]
  rfl

end Event

namespace Task

/-- Whether a task is the word that a unit of work is done. -/
def isWord : Task α → Bool
  | .announceWork _ => true
  | _ => false

/-- How many words that a unit of work is done a task leads to. -/
def words : Task α → Nat
  | .announceWork _ => 1
  | task => task.units.length

variable {task : Task α}

theorem isWord_of_isBody (body : task.isBody = true) : task.isWord = false := by
  cases task <;> first | rfl | exact absurd body Bool.false_ne_true

theorem words_of_not_isWord (quiet : task.isWord = false) : task.words = task.units.length := by
  cases task <;> first | rfl | exact absurd quiet.symm Bool.false_ne_true

theorem counts_cases (task : Task α) :
    (∃ id unit, task = .countUnit id unit) ∨ task.counts = [] := by
  cases task <;> first | exact .inr rfl | exact .inl ⟨_, _, rfl⟩

/-- Within a step only the words that units of work are done are told. -/
theorem event?_of_isNested (nested : task.isNested = true) (quiet : task.isWord = false)
    (board : Board) : task.event? board = none := by
  cases task <;> first
    | rfl
    | exact absurd quiet.symm Bool.false_ne_true
    | exact absurd nested Bool.false_ne_true

end Task

namespace Worker

/-- How many words that a unit of work is done some tasks lead to. -/
def words (agenda : List (Task α)) : Nat :=
  (agenda.map Task.words).sum

variable {agenda inner rest more : List (Task α)} {task : Task α}

@[simp] theorem words_cons : words (task :: rest) = task.words + words rest := rfl

@[simp] theorem words_append : words (more ++ rest) = words more + words rest := by
  simp [words]

theorem words_unwind_le (agenda : List (Task α)) : words (unwind agenda) ≤ words agenda := by
  obtain ⟨front, split⟩ := unwind_suffix agenda
  have joined := congrArg words split
  rw [words_append] at joined
  omega

/-- Without words among some tasks there is a word to come for each unit of work. -/
theorem words_of_silent (silent : ∀ task ∈ agenda, task.isWord = false) :
    words agenda = (agenda.flatMap Task.units).length := by
  rw [List.length_flatMap]
  apply congrArg List.sum
  apply List.map_congr_left
  intro task member
  exact Task.words_of_not_isWord (silent task member)

/-- Whether the last unit of work that was counted has been told, when `count` of them have. -/
inductive Counting (performed : UInt64) (count : Nat) : List (Task α) → Prop where
  | told (shown : performed = .ofNat count) {inner : List (Task α)}
      (silent : ∀ task ∈ inner, task.isWord = false) : Counting performed count inner
  | untold (shown : performed = .ofNat (count + 1)) {inner : List (Task α)}
      (silent : ∀ task ∈ inner, task.isWord = false) :
      Counting performed count (.announceWork performed :: inner)

/-- Where a worker is within a step of some `units`, of which it has told `done`, when `count` units
were done before. -/
structure Inside (board : Board) (failure : Option ScanError) (id count done units : Nat)
    (inner : List (Task α)) : Prop where
  settles : Settles board failure id inner
  counting : Counting board.work.performed (count + done) inner
  bound : done + words inner ≤ units
  exact : failure = none → done + words inner = units

variable [Scalar α] {board after : Board} {worker next : Worker α} {reply : Option (Reply α)}
variable {failure : Option ScanError} {error : ScanError} {id count done units : Nat}

/-- Only a unit of work that is counted leads to the word that it is done. -/
theorem isWord_of_spawns (nested : task.isNested = true)
    (nothing : task.counts = []) (spawns : task.Spawns board worker reply after more) :
    ∀ next ∈ more, next.isWord = false := by
  intro next member
  cases errand : task.isErrand
  case true =>
    apply Task.isWord_of_isBody
    exact Task.isBody_of_isErrand (Task.isErrand_of_spawns errand spawns next member)
  cases spawns with
  | nest => exact Task.isWord_of_isBody (isBody_of_mem_nestedTasks member)
  | round => exact Task.isWord_of_isBody (isBody_of_mem_iterationTasks member)
  | enter =>
      rcases List.mem_append.mp member with member | member
      · exact Task.isWord_of_isBody (isBody_of_mem_commandTasks member)
      · simp only [List.mem_cons, List.not_mem_nil, or_false] at member
        rcases member with rfl | rfl <;> rfl
  | start | settleLeaf =>
      cases List.mem_singleton.mp member
      rfl
  | countUnit => cases nothing
  | _ => first
    | exact absurd errand.symm Bool.false_ne_true
    | exact absurd nested Bool.false_ne_true
    | cases member

/-- A task within a step that tells nothing leaves all its words to the tasks in its place. -/
theorem words_of_spawns (nested : task.isNested = true) (quiet : task.isWord = false)
    (sound : worker.failure = none) (spawns : task.Spawns board worker reply after more) :
    task.words = words more := by
  rcases task.counts_cases with ⟨id, unit, rfl⟩ | nothing
  · cases spawns
    rfl
  · have balance : task.units = task.counts ++ more.flatMap Task.units :=
      (Ledger.units α).balance sound spawns
    rw [Task.words_of_not_isWord quiet, words_of_silent (isWord_of_spawns nested nothing spawns),
      balance, nothing, List.nil_append]

/-- Cleaning up within a step leads to nothing more. -/
theorem eq_nil_of_cleaning (nested : task.isNested = true) (cleans : task.cleansUp = true)
    (failed : worker.failure.isSome = true)
    (spawns : task.Spawns board worker reply after more) : more = [] := by
  cases spawns with
  | settleLeaf _ _ sound => simp [sound] at failed
  | _ => first
    | rfl
    | exact absurd cleans Bool.false_ne_true
    | exact absurd nested Bool.false_ne_true

/-- A task that succeeds within a step brings the step on by what it tells. -/
theorem Inside.of_spawns (inside : Inside board worker.failure id count done units (task :: rest))
    (sound : worker.failure = none)
    (inBounds : ∀ command, task = .start id command → id < board.monitors.size)
    (spawns : task.Spawns board worker reply after more) :
    ∃ told, Inside after worker.failure id count told units (more ++ rest) ∧
      Event.works board.work.total count told =
        Event.works board.work.total count done ++ (task.event? board).toList := by
  have settles := inside.settles.of_spawns inBounds spawns
  have whole := inside.exact sound
  have nested := inside.settles.isNested task List.mem_cons_self
  have counting := inside.counting
  generalize shape : task :: rest = inner at counting
  cases counting with
  | untold shown silent =>
      obtain ⟨rfl, rfl⟩ := List.cons.inj shape
      cases spawns with
      | announceWork =>
          have words : done + 1 + words rest = units := by
            rw [words_cons, Task.words] at whole
            omega
          refine ⟨done + 1, ⟨settles, .told shown silent, ?_, fun _ => words⟩, ?_⟩
          · exact Nat.le_of_eq words
          · rw [Event.works_concat, ← shown]
            rfl
  | told shown silent =>
      subst shape
      have quiet := silent task List.mem_cons_self
      have behind : ∀ next ∈ rest, next.isWord = false :=
        fun next member => silent next (List.mem_cons_of_mem _ member)
      have balance := words_of_spawns nested quiet sound spawns
      have words : done + words (more ++ rest) = units := by
        rw [words_cons] at whole
        rw [words_append]
        omega
      refine ⟨done, ⟨settles, ?_, Nat.le_of_eq words, fun _ => words⟩, ?_⟩
      · rcases task.counts_cases with ⟨id, unit, rfl⟩ | nothing
        · cases spawns with
          | countUnit =>
              refine .untold ?_ behind
              rw [UInt64.ofNat_add, ← shown]
              rfl
        · refine .told ?_ ?_
          · rw [Task.performed_of_spawns spawns, nothing, ← shown]
            exact UInt64.add_zero _
          · intro next member
            rcases List.mem_append.mp member with member | member
            · exact isWord_of_spawns nested nothing spawns next member
            · exact behind next member
      · rw [Task.event?_of_isNested nested quiet]
        exact (List.append_nil _).symm

omit [Scalar α] in
/-- What a task that tells nothing leaves behind after an error is told and counted as before. -/
theorem Inside.of_silent (inside : Inside board failure id count done units (task :: rest))
    (quiet : task.isWord = false) (same : after.work.performed = board.work.performed)
    (settles : Settles after (some error) id (unwind rest)) :
    Inside after (some error) id count done units (unwind rest) := by
  have counting := inside.counting
  generalize shape : task :: rest = inner at counting
  cases counting with
  | untold =>
      obtain ⟨rfl, -⟩ := List.cons.inj shape
      cases quiet
  | told shown silent =>
      subst shape
      refine ⟨settles, .told (same.trans shown) ?_, ?_, nofun⟩
      · intro next member
        exact silent next (List.mem_cons_of_mem _ ((unwind_suffix rest).mem member))
      · have fewer := words_unwind_le rest
        have bound := inside.bound
        rw [words_cons] at bound
        omega

/-- Within a step every task brings the step on by what it tells. -/
theorem Outcome.inside {step : Nat} {outer : List (Task α)}
    (agenda : worker.agenda = task :: (inner ++ .announceFinish step id :: outer))
    (outcome : Outcome board worker task (inner ++ .announceFinish step id :: outer) reply after
      next)
    (numbered : worker.IsNumbered board)
    (inside : Inside board worker.failure id count done units (task :: inner)) :
    ∃ told inner', next.agenda = inner' ++ .announceFinish step id :: outer ∧
      Inside after next.failure id count told units inner' ∧
      Event.works board.work.total count told =
        Event.works board.work.total count done ++ (task.event? board).toList := by
  have nested := inside.settles.isNested task List.mem_cons_self
  cases outcome with
  | @sound _ more sound spawns =>
      have inBounds : ∀ command, task = .start id command → id < board.monitors.size := by
        rintro command rfl
        exact numbered.exist id (mem_fresh_of_start agenda)
      obtain ⟨told, goesOn, tells⟩ := inside.of_spawns sound inBounds spawns
      refine ⟨told, more ++ inner, ?_, ?_, tells⟩
      · rw [agenda_withAgenda, List.append_assoc]
      · rwa [failure_withAgenda, failure_noting]
  | broken sound fails =>
      have idle : ∀ command, task = .start id command →
          (board.monitor id).status.canAdvance .running = true := by
        rintro command rfl
        exact numbered.canAdvance agenda
      have quiet : task.isWord = false := by cases fails <;> rfl
      have settles := inside.settles.of_fails idle fails
      refine ⟨done, unwind inner, unwind_append_cons rfl inner outer,
        inside.of_silent quiet rfl (settles.unwind rfl), ?_⟩
      rw [Task.event?_of_fails fails]
      exact (List.append_nil _).symm
  | @cleaning _ more failed cleans spawns =>
      obtain ⟨error, broken⟩ := Option.isSome_iff_exists.mp failed
      have quiet : task.isWord = false := by
        cases task <;> first | rfl | exact absurd cleans Bool.false_ne_true
      have nothing : task.counts = [] := by
        cases task <;> first | rfl | exact absurd cleans Bool.false_ne_true
      have inBounds : ∀ command, task = .start id command → id < board.monitors.size := by
        rintro command rfl
        cases cleans
      have settles := (inside.settles.of_spawns inBounds spawns).unwind failed
      obtain rfl := eq_nil_of_cleaning nested cleans failed spawns
      rw [broken, List.nil_append] at settles
      have same : after.work.performed = board.work.performed := by
        rw [Task.performed_of_spawns spawns, nothing]
        exact UInt64.add_zero _
      refine ⟨done, unwind inner, ?_, ?_, ?_⟩
      · exact unwind_append_cons rfl inner outer
      · rw [failure_withAgenda, failure_noting, broken]
        exact inside.of_silent quiet same settles
      · rw [Task.event?_of_isNested nested quiet]
        exact (List.append_nil _).symm

end Worker

end Scan
