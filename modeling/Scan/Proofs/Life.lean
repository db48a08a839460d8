import Scan.Proofs.Step

/-!
# The life of a worker

A life is a stretch of a run: the steps of the worker in order, with whatever others do to the
board in between. What others may do is a parameter, so one development serves runs that are left
alone and runs that are controlled. While a worker has not failed its steps only replace tasks;
after the failure they only clean up.
-/

namespace Scan

variable {α : Type}

namespace Worker

/-! ## Unwinding -/

@[simp] theorem unwind_nil : unwind ([] : List (Task α)) = [] := rfl

variable {task : Task α} {rest agenda : List (Task α)}

@[simp] theorem unwind_cons_of_cleansUp (cleans : task.cleansUp = true) :
    unwind (task :: rest) = task :: rest := by
  simp [unwind, cleans]

@[simp] theorem unwind_cons_of_not_cleansUp (skipped : task.cleansUp = false) :
    unwind (task :: rest) = unwind rest := by
  simp [unwind, skipped]

/-- Only the tasks in front are dropped. -/
theorem unwind_suffix (agenda : List (Task α)) : unwind agenda <:+ agenda :=
  List.dropWhile_suffix _

@[simp] theorem unwind_unwind (agenda : List (Task α)) :
    unwind (unwind agenda) = unwind agenda := by
  induction agenda with
  | nil => rfl
  | cons task rest ih =>
      cases cleans : task.cleansUp
      · rw [unwind_cons_of_not_cleansUp cleans, ih]
      · rw [unwind_cons_of_cleansUp cleans, unwind_cons_of_cleansUp cleans]

/-- An agenda that is unwound begins with a task that cleans up. -/
theorem cleansUp_of_unwind (unwound : unwind (task :: rest) = task :: rest) :
    task.cleansUp = true := by
  cases cleans : task.cleansUp
  · have short : (unwind rest).length ≤ rest.length := (unwind_suffix rest).length_le
    rw [unwind_cons_of_not_cleansUp cleans] at unwound
    rw [unwound, List.length_cons] at short
    omega
  · rfl

/-- A task that cleans up is where unwinding ends at the latest. -/
theorem unwind_append_cons {task : Task α} (cleans : task.cleansUp = true)
    (front rest : List (Task α)) :
    unwind (front ++ task :: rest) = unwind front ++ task :: rest := by
  induction front with
  | nil => simp [cleans]
  | cons first front ih =>
      cases firstCleans : first.cleansUp
      · rw [List.cons_append, unwind_cons_of_not_cleansUp firstCleans, ih,
          unwind_cons_of_not_cleansUp firstCleans]
      · rw [List.cons_append, unwind_cons_of_cleansUp firstCleans,
          unwind_cons_of_cleansUp firstCleans, List.cons_append]

/-- Unwinding only loses the first of what the tasks contribute. -/
theorem flatMap_unwind_suffix {β : Type} (due : Task α → List β) (agenda : List (Task α)) :
    (unwind agenda).flatMap due <:+ agenda.flatMap due := by
  obtain ⟨front, split⟩ := unwind_suffix agenda
  refine ⟨front.flatMap due, ?_⟩
  rw [← List.flatMap_append, split]

/-! ## Outcomes of a step -/

/-- The worker with another agenda. -/
def withAgenda (worker : Worker α) (agenda : List (Task α)) : Worker α :=
  { worker with agenda := agenda }

/-- A worker that has nothing in front after an error but what cleans up. -/
def IsSteady (worker : Worker α) : Prop :=
  worker.failure.isSome = true → unwind worker.agenda = worker.agenda

/-- The worker of a whole run has not failed. -/
theorem isSteady_ofSteps {steps : List (Command α)} {pollInterval : Duration} {runId : String}
    {name : Option String} {totalWork : UInt64} :
    (ofSteps steps pollInterval runId name totalWork).IsSteady := by
  intro failed
  cases failed

variable (worker : Worker α)

@[simp] theorem agenda_withAgenda : (worker.withAgenda agenda).agenda = agenda := rfl

@[simp] theorem failure_withAgenda : (worker.withAgenda agenda).failure = worker.failure := rfl

@[simp] theorem report_withAgenda : (worker.withAgenda agenda).report = worker.report := rfl

@[simp] theorem completed_withAgenda :
    (worker.withAgenda agenda).completed = worker.completed := rfl

@[simp] theorem stopped_withAgenda : (worker.withAgenda agenda).stopped = worker.stopped := rfl

@[simp] theorem totalWork_withAgenda :
    (worker.withAgenda agenda).totalWork = worker.totalWork := rfl

@[simp] theorem agenda_closing (step : Nat) (description : String) :
    (worker.closing step description).agenda = worker.agenda := by
  unfold closing
  split <;> rfl

@[simp] theorem failure_closing (step : Nat) (description : String) :
    (worker.closing step description).failure = worker.failure := by
  unfold closing
  split <;> simp_all

variable (board : Board) (task : Task α) (reply : Option (Reply α))

@[simp] theorem agenda_noting : (worker.noting board task reply).agenda = worker.agenda := by
  unfold noting
  split <;> simp

@[simp] theorem failure_noting : (worker.noting board task reply).failure = worker.failure := by
  unfold noting
  split <;> simp

theorem proceed_of_sound (sound : worker.failure = none) (more : List (Task α)) :
    worker.proceed more = worker.withAgenda (more ++ worker.agenda.tail) := by
  simp [proceed, withAgenda, sound]

theorem proceed_of_failed (failed : worker.failure.isSome = true) (more : List (Task α)) :
    worker.proceed more = worker.withAgenda (unwind (more ++ worker.agenda.tail)) := by
  simp [proceed, withAgenda, failed]

/-- What comes of one task: a sound worker succeeds or breaks, and one that has failed cleans
up. -/
inductive Outcome [Scalar α] (board : Board) (worker : Worker α) (task : Task α)
    (rest : List (Task α)) (reply : Option (Reply α)) : Board → Worker α → Prop where
  | sound {after : Board} {more : List (Task α)} (sound : worker.failure = none)
      (spawns : task.Spawns board worker reply after more) :
      Outcome board worker task rest reply after
        ((worker.noting board task reply).withAgenda (more ++ rest))
  | broken {error : ScanError} (sound : worker.failure = none)
      (fails : task.Fails board reply error) :
      Outcome board worker task rest reply board
        { worker with agenda := unwind rest, failure := some error }
  | cleaning {after : Board} {more : List (Task α)} (failed : worker.failure.isSome = true)
      (cleans : task.cleansUp = true) (spawns : task.Spawns board worker reply after more) :
      Outcome board worker task rest reply after
        ((worker.noting board task reply).withAgenda (unwind (more ++ rest)))

variable {board task reply} {worker} {after : Board} {next : Worker α}

/-- A task that cleans up never fails. -/
theorem not_cleansUp_of_fails {error : ScanError}
    (fails : task.Fails board reply error) : task.cleansUp = false := by
  cases fails <;> rfl

variable [Scalar α]

/-- A step of a steady worker has one of these outcomes. -/
theorem outcome_of_step? (steady : worker.IsSteady) (agenda : worker.agenda = task :: rest)
    (stepped : worker.step? board reply = some (after, next)) :
    Outcome board worker task rest reply after next := by
  obtain ⟨_, _, same, result⟩ := step?_cases stepped
  obtain ⟨rfl, rfl⟩ := List.cons.inj (agenda.symm.trans same)
  cases failure : worker.failure with
  | none =>
      rcases result with ⟨more, spawns, rfl⟩ | ⟨error, fails, rfl, rfl⟩
      · rw [proceed_of_sound _ (by simp [failure]), agenda_noting, agenda]
        exact .sound failure spawns
      · rw [fail, agenda]
        exact .broken failure fails
  | some _ =>
      have failed : worker.failure.isSome = true := by simp [failure]
      have cleans : task.cleansUp = true := cleansUp_of_unwind (agenda ▸ steady failed)
      rcases result with ⟨more, spawns, rfl⟩ | ⟨error, fails, rfl, rfl⟩
      · rw [proceed_of_failed _ (by simpa using failed), agenda_noting, agenda]
        exact .cleaning failed cleans spawns
      · simp [not_cleansUp_of_fails fails] at cleans

/-- What is left of an agenda after a step is unwound if the worker has failed. -/
theorem Outcome.isSteady (outcome : Outcome board worker task rest reply after next) :
    next.IsSteady := by
  cases outcome with
  | sound sound _ => simp [IsSteady, sound]
  | broken => simp [IsSteady]
  | cleaning => simp [IsSteady]

end Worker

/-! ## Lives -/

variable [Scalar α] {others : Board → Board → Prop} {board now after : Board}
variable {worker current next : Worker α} {past : List (Deed α)}

/-- A stretch of a run from a board and a worker on: what the worker did, and what came of it while
the others changed the board in between. -/
inductive Life (others : Board → Board → Prop) (board : Board) (worker : Worker α) :
    List (Deed α) → Board → Worker α → Prop where
  | begin : Life others board worker [] board worker
  | work {past : List (Deed α)} {now after : Board} {current next : Worker α} {task : Task α}
      {rest : List (Task α)} {reply : Option (Reply α)}
      (life : Life others board worker past now current)
      (agenda : current.agenda = task :: rest)
      (stepped : current.step? now reply = some (after, next)) :
      Life others board worker (past ++ [⟨task, reply⟩]) after next
  | wait {past : List (Deed α)} {now after : Board} {current : Worker α}
      (life : Life others board worker past now current) (other : others now after) :
      Life others board worker past after current

namespace Life

/-- A steady worker stays steady. -/
theorem isSteady (life : Life others board worker past now current)
    (steady : worker.IsSteady) : current.IsSteady := by
  induction life with
  | begin => exact steady
  | wait _ _ ih => exact ih
  | work _ agenda stepped ih => exact (Worker.outcome_of_step? ih agenda stepped).isSteady

/-- A worker that has failed keeps its error. -/
theorem failure_eq (life : Life others board worker past now current)
    (steady : worker.IsSteady) {error : ScanError} (failed : worker.failure = some error) :
    current.failure = some error := by
  induction life with
  | begin => exact failed
  | wait _ _ ih => exact ih
  | work life agenda stepped ih =>
      cases Worker.outcome_of_step? (life.isSteady steady) agenda stepped with
      | sound sound _ => simp [sound] at ih
      | broken sound _ => simp [sound] at ih
      | cleaning => simpa using ih

/-- What holds of the tasks of a worker and passes on from a task to those in its place holds of all
that the worker ever does. -/
theorem forall_task (life : Life others board worker past now current)
    (steady : worker.IsSteady) {holds : Task α → Prop}
    (passes : ∀ {board after : Board} {worker : Worker α} {task : Task α}
      {reply : Option (Reply α)} {more : List (Task α)}, holds task →
        task.Spawns board worker reply after more → ∀ other ∈ more, holds other)
    (start : ∀ task ∈ worker.agenda, holds task) :
    (∀ deed ∈ past, holds deed.task) ∧ ∀ task ∈ current.agenda, holds task := by
  induction life with
  | begin => exact ⟨List.forall_mem_nil _, start⟩
  | wait _ _ ih => exact ih
  | @work _ _ _ _ _ task rest reply life agenda stepped ih =>
      obtain ⟨done, due⟩ := ih
      rw [agenda, List.forall_mem_cons] at due
      obtain ⟨own, behind⟩ := due
      refine ⟨?_, ?_⟩
      · intro deed member
        rcases List.mem_append.mp member with member | member
        · exact done deed member
        · cases List.mem_singleton.mp member
          exact own
      · cases Worker.outcome_of_step? (life.isSteady steady) agenda stepped with
        | sound _ spawns => exact List.forall_mem_append.mpr ⟨passes own spawns, behind⟩
        | broken => exact fun task member => behind task ((Worker.unwind_suffix _).mem member)
        | cleaning _ _ spawns =>
            intro task member
            exact List.forall_mem_append.mpr ⟨passes own spawns, behind⟩ task
              ((Worker.unwind_suffix _).mem member)

variable {task : Task α} {rest more : List (Task α)} {reply : Option (Reply α)}
variable {error : ScanError}

/-- A life goes on by a task that succeeds. -/
theorem exists_spawn (life : Life others board worker past now current)
    (sound : current.failure = none) (agenda : current.agenda = task :: rest)
    (spawns : task.Spawns now current reply after more) :
    ∃ next, Life others board worker (past ++ [⟨task, reply⟩]) after next ∧
      next.failure = none ∧ next.agenda = more ++ rest := by
  refine ⟨_, life.work agenda (Worker.step?_of_spawns agenda spawns), ?_⟩
  rw [Worker.proceed_of_sound _ (by simpa using sound)]
  simp [sound, agenda]

/-- A life goes on by a task that fails. -/
theorem exists_fail (life : Life others board worker past now current)
    (agenda : current.agenda = task :: rest) (fails : task.Fails now reply error) :
    ∃ next, Life others board worker (past ++ [⟨task, reply⟩]) now next ∧
      next.failure = some error ∧ next.agenda = Worker.unwind rest :=
  ⟨_, life.work agenda (Worker.step?_of_fails agenda fails), rfl, by rw [Worker.fail, agenda]; rfl⟩

/-- A life goes on by a task that cleans up. -/
theorem exists_cleaning (life : Life others board worker past now current)
    (failed : current.failure = some error) (agenda : current.agenda = task :: rest)
    (spawns : task.Spawns now current reply after more) :
    ∃ next, Life others board worker (past ++ [⟨task, reply⟩]) after next ∧
      next.failure = some error ∧ next.agenda = Worker.unwind (more ++ rest) := by
  refine ⟨_, life.work agenda (Worker.step?_of_spawns agenda spawns), ?_⟩
  rw [Worker.proceed_of_failed _ (by simp [failed])]
  simp [failed, agenda]

end Life

/-! ## Ledgers -/

/-- A ledger keeps account of what tasks do and of what they are bound to do: a task that succeeds
leaves to the tasks in its place what it has not done itself. -/
structure Ledger (α β : Type) [Scalar α] where
  does : Task α → List β
  due : Task α → List β
  balance : ∀ {board after : Board} {worker : Worker α} {task : Task α} {reply : Option (Reply α)}
    {more : List (Task α)}, worker.failure = none → task.Spawns board worker reply after more →
      due task = does task ++ more.flatMap due

namespace Ledger

variable {β : Type} (ledger : Ledger α β)

/-- What was done in some steps. -/
def done (past : List (Deed α)) : List β :=
  past.flatMap fun deed => ledger.does deed.task

/-- What is left to be done. -/
def left (agenda : List (Task α)) : List β :=
  agenda.flatMap ledger.due

@[simp] theorem done_nil : ledger.done [] = [] := rfl

@[simp] theorem done_append (first second : List (Deed α)) :
    ledger.done (first ++ second) = ledger.done first ++ ledger.done second :=
  List.flatMap_append

@[simp] theorem done_singleton (deed : Deed α) :
    ledger.done [deed] = ledger.does deed.task := by
  simp [done]

/-- As long as a worker has not failed, what it did and what is left make up what it was bound to
do. -/
theorem done_append_left (life : Life others board worker past now current)
    (steady : worker.IsSteady) (sound : current.failure = none) :
    ledger.done past ++ ledger.left current.agenda = ledger.left worker.agenda := by
  induction life with
  | begin => rfl
  | wait _ _ ih => exact ih sound
  | work life agenda stepped ih =>
      cases Worker.outcome_of_step? (life.isSteady steady) agenda stepped with
      | sound before spawns =>
          rw [← ih before, done_append, done_singleton, Worker.agenda_withAgenda, left, left,
            agenda, List.flatMap_cons, List.flatMap_append, ledger.balance before spawns]
          simp
      | broken => simp at sound
      | cleaning failed => simp_all

/-- What a worker did is the first part of what it was bound to do, if neither a task that fails nor
one that cleans up does anything. -/
theorem done_isPrefix (life : Life others board worker past now current)
    (steady : worker.IsSteady)
    (fails : ∀ {board : Board} {task : Task α} {reply : Option (Reply α)} {error : ScanError},
      task.Fails board reply error → ledger.does task = [])
    (cleans : ∀ task, task.cleansUp = true → ledger.does task = []) :
    ledger.done past <+: ledger.left worker.agenda := by
  induction life with
  | begin => exact List.nil_prefix
  | wait _ _ ih => exact ih
  | @work past _ _ _ _ task _ reply life agenda stepped ih =>
      rw [done_append, done_singleton]
      cases Worker.outcome_of_step? (life.isSteady steady) agenda stepped with
      | sound sound spawns =>
          rw [← ledger.done_append_left life steady sound, left, agenda, List.flatMap_cons,
            ledger.balance sound spawns, List.append_assoc, ← List.append_assoc]
          exact List.prefix_append _ _
      | broken _ broken => simpa [fails broken] using ih
      | cleaning _ cleaning => simpa [cleans task cleaning] using ih

end Ledger

end Scan
