import Scan.Proofs.Stage

/-!
# Where a run stands

A run is either between two top-level steps or within one. It is within a step from the word that
the step starts to the word that it is over, and until then its worker has nothing in front of that
word but tasks of the step.
-/

namespace Scan

variable {α : Type}

/-- The top-level step in progress once a task is done, if `before` was in progress until then. -/
def Task.stepAfter (before : Option Nat) : Task α → Option Nat
  | .announceStart step _ _ => some step
  | .announceFinish .. => none
  | _ => before

/-- The top-level step in progress after some deeds: the last one that was started, unless it is
over. -/
def inProgress (past : List (Deed α)) : Option Nat :=
  past.foldl (fun before deed => deed.task.stepAfter before) none

@[simp] theorem inProgress_concat (past : List (Deed α)) (deed : Deed α) :
    inProgress (past ++ [deed]) = deed.task.stepAfter (inProgress past) := by
  simp [inProgress]

/-- Whether a task is the word that a top-level step is over. -/
def Task.isFinish : Task α → Bool
  | .announceFinish .. => true
  | _ => false

theorem Task.isFinish_of_isNested {task : Task α} (nested : task.isNested = true) :
    task.isFinish = false := by
  cases task <;> first | rfl | exact absurd nested Bool.false_ne_true

theorem Task.stepAfter_of_isNested {task : Task α} (nested : task.isNested = true)
    (before : Option Nat) : task.stepAfter before = before := by
  cases task <;> first | rfl | exact absurd nested Bool.false_ne_true

namespace Worker

/-- How an agenda shows which top-level step is in progress. -/
inductive Stands : Option Nat → List (Task α) → Prop where
  | between {agenda : List (Task α)} (apart : ∀ task ∈ agenda, task.isFinish = false) :
      Stands none agenda
  | within {step id : Nat} {inner rest : List (Task α)}
      (nested : ∀ task ∈ inner, task.isNested = true)
      (apart : ∀ task ∈ rest, task.isFinish = false) :
      Stands (some step) (inner ++ .announceFinish step id :: rest)

/-- Unwinding does not change where a run stands. -/
theorem Stands.unwind {step : Option Nat} {agenda : List (Task α)} (stands : Stands step agenda) :
    Stands step (unwind agenda) := by
  cases stands with
  | between apart => exact .between fun task member => apart task ((unwind_suffix _).mem member)
  | within nested apart =>
      rw [unwind_append_cons rfl]
      exact .within (fun task member => nested task ((unwind_suffix _).mem member)) apart

variable [Scalar α] {board after : Board} {worker next : Worker α} {task : Task α}
variable {rest more : List (Task α)} {reply : Option (Reply α)} {step : Option Nat}

/-- Only the word that a step starts puts the word that it is over on the agenda. -/
theorem isFinish_of_spawns (spawns : task.Spawns board worker reply after more)
    (other : ∀ step id command, task ≠ .announceStart step id command) :
    ∀ next ∈ more, next.isFinish = false := by
  intro next member
  cases nested : task.isNested
  case true => exact Task.isFinish_of_isNested (Task.isNested_of_spawns nested spawns next member)
  cases spawns with
  | announceStart step id command => exact absurd rfl (other step id command)
  | steps step remaining =>
      cases remaining with
      | nil => cases member
      | cons =>
          simp only [stepTasks, List.mem_cons, List.not_mem_nil, or_false] at member
          rcases member with rfl | rfl | rfl | rfl | rfl <;> rfl
  | prepare | report =>
      simp only [List.mem_cons, List.not_mem_nil, or_false] at member
      rcases member with rfl | rfl | rfl <;> rfl
  | _ => first
    | exact absurd nested.symm Bool.false_ne_true
    | cases member

/-- A task that is done leaves the run standing where its deed says. -/
theorem Stands.of_spawns (spawns : task.Spawns board worker reply after more)
    (stands : Stands step (task :: rest)) : Stands (task.stepAfter step) (more ++ rest) := by
  generalize shape : task :: rest = agenda at stands
  cases stands with
  | @within step id inner others nested apart =>
      cases inner with
      | nil =>
          obtain ⟨rfl, rfl⟩ := List.cons.inj shape
          cases spawns with
          | announceFinish => exact .between apart
      | cons first inner =>
          rw [List.cons_append] at shape
          obtain ⟨rfl, rfl⟩ := List.cons.inj shape
          have own : task.isNested = true := nested task List.mem_cons_self
          rw [Task.stepAfter_of_isNested own, ← List.append_assoc]
          refine .within (fun next member => ?_) apart
          rcases List.mem_append.mp member with member | member
          · exact Task.isNested_of_spawns own spawns next member
          · exact nested next (List.mem_cons_of_mem _ member)
  | between apart =>
      subst shape
      have others : ∀ next ∈ rest, next.isFinish = false :=
        fun next member => apart next (List.mem_cons_of_mem _ member)
      by_cases starts : ∃ step id command, task = .announceStart step id command
      · obtain ⟨step, id, command, rfl⟩ := starts
        cases spawns with
        | announceStart =>
            have own : ∀ next ∈ [Task.start id command], next.isNested = true := by
              simp [Task.isNested]
            exact .within own others
      · have other : ∀ step id command, task ≠ .announceStart step id command :=
          fun step id command same => starts ⟨step, id, command, same⟩
        have same : task.stepAfter none = none := by
          cases task <;> first | rfl | exact absurd rfl (other _ _ _)
        rw [same]
        apply Stands.between
        intro next member
        rcases List.mem_append.mp member with member | member
        · exact isFinish_of_spawns spawns other next member
        · exact others next member

omit [Scalar α] in
/-- A task that fails leaves the run standing where it was. -/
theorem Stands.of_fails {error : ScanError} (fails : task.Fails board reply error)
    (stands : Stands step (task :: rest)) : Stands (task.stepAfter step) rest := by
  have same : task.stepAfter step = step := by cases fails <;> rfl
  rw [same]
  generalize shape : task :: rest = agenda at stands
  cases stands with
  | @within step id inner others nested apart =>
      cases inner with
      | nil =>
          obtain ⟨rfl, rfl⟩ := List.cons.inj shape
          cases fails
      | cons first inner =>
          rw [List.cons_append] at shape
          obtain ⟨rfl, rfl⟩ := List.cons.inj shape
          exact .within (fun next member => nested next (List.mem_cons_of_mem _ member)) apart
  | between apart =>
      subst shape
      exact .between fun next member => apart next (List.mem_cons_of_mem _ member)

omit [Scalar α] in
theorem stands_ofSteps (steps : List (Command α)) (pollInterval : Duration) (runId : String)
    (name : Option String) (totalWork : UInt64) :
    Stands none (ofSteps steps pollInterval runId name totalWork).agenda := by
  apply Stands.between
  simp [ofSteps, Task.isFinish]

end Worker

/-- The agenda of a worker shows which of the top-level steps is in progress. -/
theorem Life.stands [Scalar α] {others : Board → Board → Prop} {board now : Board}
    {worker current : Worker α} {past : List (Deed α)}
    (life : Life others board worker past now current) (steady : worker.IsSteady)
    (start : Worker.Stands none worker.agenda) :
    Worker.Stands (inProgress past) current.agenda := by
  induction life with
  | begin => exact start
  | wait _ _ ih => exact ih
  | work life agenda stepped ih =>
      rw [agenda] at ih
      rw [inProgress_concat]
      cases Worker.outcome_of_step? (life.isSteady steady) agenda stepped with
      | sound _ spawns => exact ih.of_spawns spawns
      | broken _ fails => exact (ih.of_fails fails).unwind
      | cleaning _ _ spawns => exact (ih.of_spawns spawns).unwind

end Scan
