import Scan.Proofs.Frames
import Scan.Proofs.Recurrence

/-!
# What the board shows of the steps in progress

The steps in progress that the board shows are those that were entered and not left again. Whatever
comes of a step, it leaves the others as it found them, and once it is over no wait of it goes on.
-/

namespace Scan

variable {α : Type}

/-- The wait of a step apart from whether it is cut short: since when, with which latch, and after
how many others. -/
def Monitor.wait (monitor : Monitor) : Option Instant × Option Nat × Nat :=
  (monitor.started, monitor.installed, monitor.latches.size)

/-- What leaves the steps in progress as they are, and their waits apart from cutting them short. -/
structure Board.Spares (board after : Board) : Prop where
  active : after.active = board.active
  currentStep : after.currentStep = board.currentStep
  wait : ∀ id, (after.monitor id).wait = (board.monitor id).wait

namespace Board.Spares

variable {board after : Board} (spares : board.Spares after) (id : Nat)

include spares

theorem started : (after.monitor id).started = (board.monitor id).started :=
  congrArg Prod.fst (spares.wait id)

theorem installed : (after.monitor id).installed = (board.monitor id).installed :=
  congrArg (·.2.1) (spares.wait id)

theorem size_latches : (after.monitor id).latches.size = (board.monitor id).latches.size :=
  congrArg (·.2.2) (spares.wait id)

end Board.Spares

/-- A board on which no wait is in progress: none has begun, and none has a latch. -/
def Board.HasNoWait (board : Board) : Prop :=
  ∀ id, (board.monitor id).started = none ∧ (board.monitor id).installed = none

/-- Whether a task leads from the top to a step. -/
def Task.leadsToStep : Task α → Bool
  | .safePoint | .openStep _ | .announceStart .. | .start .. => true
  | _ => false

section Spawning

variable [Scalar α] {board after : Board} {worker : Worker α} {task : Task α}
variable {more : List (Task α)} {reply : Option (Reply α)} {frames : List (Frame α)} {id : Nat}

/-- What holds of every new monitor, and is kept by each change that a task makes, goes on to hold
of every monitor. -/
theorem Task.keeps_of_spawns (holds : Monitor → Prop)
    (new : ∀ monitor, Monitor.IsNew monitor → holds monitor)
    (advance : ∀ monitor status, holds monitor → holds (monitor.advance status))
    (installs : ∀ own, task = .installLatch own →
      ∀ monitor, holds monitor → holds monitor.installLatch)
    (stamps : ∀ own, task = .stampStart own →
      ∀ monitor now, holds monitor → holds (monitor.stampStart now))
    (clears : ∀ monitor, holds monitor → holds monitor.clearStart)
    (removes : ∀ monitor, holds monitor → holds monitor.removeLatch)
    (spawns : task.Spawns board worker reply after more) (before : holds (board.monitor id)) :
    holds (after.monitor id) := by
  have made : ∀ commands : List (Command α), holds ((board.addCommands commands).monitor id) := by
    intro commands
    rcases Nat.lt_or_ge id board.monitors.size with old | above
    · rw [board.monitor_addCommands_of_lt commands old]
      exact before
    · rcases Nat.lt_or_ge id (board.monitors.size + Command.monitorCounts commands)
        with within | beyond
      · exact new _ (board.isNew_addCommands_of_ge commands above within)
      · rw [← board.size_addCommands commands] at beyond
        exact new _ (Board.isNew_monitor_of_ge _ beyond)
  cases spawns with
  | start | settle | settleLeaf =>
      exact board.monitor_update_of _ holds (fun monitor => advance monitor _) before
  | installLatch own => exact board.monitor_update_of _ holds (installs own rfl) before
  | stampStart own =>
      exact board.monitor_update_of _ holds (fun monitor => stamps own rfl monitor _) before
  | clearStart => exact board.monitor_update_of _ holds clears before
  | removeLatch => exact board.monitor_update_of _ holds removes before
  | nest commands | prepare commands => exact made commands
  | _ => exact before

theorem Monitor.started_advance (monitor : Monitor) (status : StepStatus) :
    (monitor.advance status).started = monitor.started := by
  unfold advance
  split <;> rfl

theorem Monitor.installed_advance (monitor : Monitor) (status : StepStatus) :
    (monitor.advance status).installed = monitor.installed := by
  unfold advance
  split <;> rfl

/-- The beginning of a wait is noted by nothing else than the task that does so. -/
theorem Task.started_of_spawns (unstamped : ∀ own, task ≠ .stampStart own)
    (spawns : task.Spawns board worker reply after more)
    (before : (board.monitor id).started = none) : (after.monitor id).started = none := by
  refine Task.keeps_of_spawns (fun monitor => monitor.started = none) ?_ ?_ (fun _ _ _ none => none)
    (fun own same => absurd same (unstamped own)) (fun _ _ => rfl) (fun _ none => none)
    spawns before
  · rintro _ ⟨_, _, rfl⟩
    rfl
  · exact fun monitor status none => (monitor.started_advance status).trans none

/-- A latch is installed by nothing else than the task that does so. -/
theorem Task.installed_of_spawns (uninstalled : ∀ own, task ≠ .installLatch own)
    (spawns : task.Spawns board worker reply after more)
    (before : (board.monitor id).installed = none) : (after.monitor id).installed = none := by
  refine Task.keeps_of_spawns (fun monitor => monitor.installed = none) ?_ ?_
    (fun own same => absurd same (uninstalled own)) (fun _ _ _ _ none => none) (fun _ none => none)
    (fun _ _ => rfl) spawns before
  · rintro _ ⟨_, _, rfl⟩
    rfl
  · exact fun monitor status none => (monitor.installed_advance status).trans none

/-- What is done while a wait is in progress leads to more of that and leaves the board alone. -/
theorem Task.isWaiting_of_spawns (waiting : task.isWaiting = true)
    (spawns : task.Spawns board worker reply after more) :
    after = board ∧ ∀ next ∈ more, next.isWaiting = true := by
  cases spawns with
  | safePoint | deadlinePassed | delayCut | satisfied | pollCut =>
      exact ⟨rfl, List.forall_mem_nil _⟩
  | armDelay | heedAbort | deadlineAhead | delayGoesOn | armPoll | limited | unlimited
  | withinLimit | pollGoesOn => exact ⟨rfl, by simp [Task.isWaiting]⟩
  | _ => cases waiting

end Spawning

namespace Worker

/-- Unwinding ends in the first of two agendas or in the second. -/
theorem unwind_append (front rest : List (Task α)) :
    unwind (front ++ rest) = if unwind front = [] then unwind rest else unwind front ++ rest := by
  induction front with
  | nil => rfl
  | cons task front ih =>
      cases cleans : task.cleansUp with
      | true => simp [cleans]
      | false => simp [cleans, ih]

variable {top : Nat → Frame α → Prop} {base : List Nat} {board after : Board} {id : Nat}
variable {frames : List (Frame α)} {task : Task α} {rest agenda : List (Task α)}

/-- A worker with some steps in progress, which are shown as such beside others that were so before.
A wait whose beginning is noted, or that has a latch, belongs to the innermost one, and it will be
over before anything else is done. -/
structure Nests (top : Nat → Frame α → Prop) (base : List Nat) (board : Board)
    (frames : List (Frame α)) (agenda : List (Task α)) : Prop where
  stacked : Stacked top base board.currentStep frames agenda
  active : board.active = frames.map Prod.fst ++ base
  timed : ∀ id, (board.monitor id).started ≠ none →
    Waits id agenda ∧ board.active.head? = some id
  latched : ∀ id, (board.monitor id).installed ≠ none →
    Latched id agenda ∧ board.active.head? = some id

theorem Nests.of_spares (nests : Nests top base board frames agenda) (spares : board.Spares after) :
    Nests top base after frames agenda where
  stacked := spares.currentStep ▸ nests.stacked
  active := spares.active.trans nests.active
  timed := fun id started => by
    rw [spares.started] at started
    rw [spares.active]
    exact nests.timed id started
  latched := fun id installed => by
    rw [spares.installed] at installed
    rw [spares.active]
    exact nests.latched id installed

/-- After an error the steps in progress are the same, and a wait is still taken back. -/
theorem Nests.unwind (nests : Nests top base board frames agenda) :
    Nests top base board frames (unwind agenda) where
  stacked := nests.stacked.unwind
  active := nests.active
  timed := fun id started => (nests.timed id started).imp_left (·.unwind rfl)
  latched := fun id installed => (nests.latched id installed).imp_left (·.unwind rfl)

/-- No wait has begun if the worker is neither in one nor about to take the note of it back. -/
theorem Nests.started_eq_none (nests : Nests top base board frames (task :: rest))
    (apart : task.isWaiting = false) (ahead : ∀ id, task ≠ .clearStart id) (id : Nat) :
    (board.monitor id).started = none := by
  by_contra started
  rcases (nests.timed id started).1.of_cons with clears | ⟨waiting, -⟩
  · exact ahead id clears
  · simp [waiting] at apart

/-- No wait has a latch if the worker is neither in one nor about to remove the latch. -/
theorem Nests.installed_eq_none (nests : Nests top base board frames (task :: rest))
    (apart : task.isWaiting = false) (within : ∀ id, task ≠ .stampStart id ∧ task ≠ .clearStart id)
    (ahead : ∀ id, task ≠ .removeLatch id) (id : Nat) : (board.monitor id).installed = none := by
  by_contra installed
  rcases (nests.latched id installed).1.of_cons with removes | ⟨waiting | stamps | clears, -⟩
  · exact ahead id removes
  · simp [waiting] at apart
  · exact (within id).1 stamps
  · exact (within id).2 clears

/-- A worker that is not in a wait shows none. -/
theorem Nests.hasNoWait (nests : Nests top base board frames (task :: rest))
    (apart : task.isWaiting = false) (within : ∀ id, task ≠ .stampStart id ∧ task ≠ .clearStart id)
    (ahead : ∀ id, task ≠ .removeLatch id) : board.HasNoWait :=
  fun id => ⟨nests.started_eq_none apart (fun id => (within id).2) id,
    nests.installed_eq_none apart within ahead id⟩

/-- With nothing in front of a worker the board is as it was before. -/
theorem Nests.of_nil (nests : Nests top base board frames []) :
    board.active = base ∧ board.HasNoWait := by
  constructor
  · have outside : frames = [] := by
      generalize shape : ([] : List (Task α)) = agenda at nests
      cases nests.stacked with
      | working framed =>
          cases framed with
          | outside => rfl
          | inside => simp at shape
      | entering => cases shape
      | leaving => simp at shape
    rw [nests.active, outside]
    rfl
  · intro id
    constructor
    · by_contra started
      exact not_closes_nil (nests.timed id started).1
    · by_contra installed
      exact not_closes_nil (nests.latched id installed).1

/-- What comes first in front of a worker, by the steps in progress. -/
theorem Stacked.cases_of_cons {current : Nat}
    (stacked : Stacked top base current frames (task :: rest)) :
    (frames = [] ∧ (task.IsApart top base ∨ task.leadsToStep = true)) ∨
      (∃ id command, task = .enter id command) ∨
      ∃ frame outer, frames = frame :: outer ∧
        (task.IsOf frame ∧ task.IsFollowedBy rest ∨
          task = .settle frame.1 frame.2 ∨ task.isCounting = true ∨ task = .leave) := by
  generalize shape : task :: rest = agenda at stacked
  cases stacked with
  | working framed =>
      cases framed with
      | outside stands =>
          refine .inl ⟨rfl, ?_⟩
          cases stands with
          | apart apart => exact .inl (apart task (shape ▸ List.mem_cons_self))
          | @opening front _ _ _ _ way =>
              cases front with
              | nil =>
                  cases shape
                  exact .inr rfl
              | cons first front =>
                  obtain ⟨rfl, -⟩ := List.cons.inj shape
                  cases way _ List.mem_cons_self
                  exact .inr rfl
          | opened | due =>
              cases shape
              exact .inr rfl
      | @inside frame outer inner behind own paired =>
          refine .inr (.inr ⟨frame, outer, rfl, ?_⟩)
          cases inner with
          | nil =>
              cases shape
              exact .inr (.inl rfl)
          | cons first inner =>
              obtain ⟨rfl, rfl⟩ := List.cons.inj shape
              refine .inl ⟨own _ List.mem_cons_self, ?_⟩
              exact isFollowedBy_append paired.1 _
  | entering =>
      cases shape
      exact .inr (.inl ⟨_, _, rfl⟩)
  | @leaving frame outer inner behind counts =>
      refine .inr (.inr ⟨frame, outer, rfl, .inr (.inr ?_)⟩)
      cases inner with
      | nil =>
          cases shape
          exact .inr rfl
      | cons first inner =>
          obtain ⟨rfl, -⟩ := List.cons.inj shape
          exact .inl (counts _ List.mem_cons_self)

/-- The task at the beginning of a wait belongs to the innermost step, and the wait comes behind. -/
theorem Stacked.isFollowedBy_of_beginsWait {current : Nat}
    (stacked : Stacked top base current frames (task :: rest)) (begins : task.beginsWait = true) :
    task.IsFollowedBy rest ∧ ∃ frame outer, frames = frame :: outer ∧ task.IsOf frame := by
  rcases stacked.cases_of_cons with ⟨-, apart | leads⟩ | ⟨_, _, rfl⟩ |
    ⟨frame, outer, rfl, ⟨own, follows⟩ | rfl | counts | rfl⟩
  · cases task <;> first | exact apart.elim | cases begins
  · have apart : task.leadsToStep = false := by cases task <;> first | rfl | cases begins
    simp [apart] at leads
  · cases begins
  · exact ⟨follows, frame, outer, rfl, own⟩
  · cases begins
  · have apart : task.isCounting = false := by cases task <;> first | rfl | cases begins
    simp [apart] at counts
  · cases begins

/-- A step is left only if one is in progress. -/
theorem Stacked.exists_of_leave {current : Nat}
    (stacked : Stacked top base current frames (.leave :: rest)) :
    ∃ frame outer, frames = frame :: outer := by
  rcases stacked.cases_of_cons with ⟨-, apart | leads⟩ | ⟨_, _, enters⟩ | ⟨frame, outer, same, -⟩
  · exact apart.elim
  · cases leads
  · cases enters
  · exact ⟨frame, outer, same⟩

/-- All steps are taken off only if none is in progress any more. -/
theorem Stacked.eq_nil_of_clearActive {current : Nat}
    (stacked : Stacked top base current frames (.clearActive :: rest)) :
    frames = [] ∧ base = [] := by
  rcases stacked.cases_of_cons with ⟨none, apart | leads⟩ | ⟨_, _, enters⟩ |
    ⟨_, _, -, ⟨own, -⟩ | settles | counts | leaves⟩
  · exact ⟨none, apart⟩
  · cases leads
  · cases enters
  · exact own.elim
  · cases settles
  · cases counts
  · cases leaves

/-- The wait of a note is that of the innermost step. -/
theorem Nests.timed_of_stampStart {now : Instant} {own : Nat}
    (nests : Nests top base board frames (.stampStart own :: rest))
    (started : ((board.update own (·.stampStart now)).monitor id).started ≠ none) :
    Waits id rest ∧ board.active.head? = some id := by
  obtain ⟨⟨first, behind, waiting, rfl⟩, frame, outer, rfl, mine⟩ :=
    nests.stacked.isFollowedBy_of_beginsWait rfl
  have same : own = id := by
    by_contra other
    rw [Board.monitor_update, if_neg (fun both => other both.1)] at started
    exact started (nests.started_eq_none rfl nofun id)
  have innermost : own = frame.1 := mine
  subst same
  refine ⟨⟨[first], _, rfl, by simpa using waiting⟩, ?_⟩
  rw [nests.active, innermost]
  rfl

/-- The wait of a latch is that of the innermost step. -/
theorem Nests.latched_of_installLatch {own : Nat}
    (nests : Nests top base board frames (.installLatch own :: rest))
    (installed : ((board.update own Monitor.installLatch).monitor id).installed ≠ none) :
    Latched id rest ∧ board.active.head? = some id := by
  obtain ⟨⟨first, behind, waiting, rfl⟩, frame, outer, rfl, mine⟩ :=
    nests.stacked.isFollowedBy_of_beginsWait rfl
  have same : own = id := by
    by_contra other
    rw [Board.monitor_update, if_neg (fun both => other both.1)] at installed
    exact installed (nests.installed_eq_none rfl (fun _ => ⟨nofun, nofun⟩) nofun id)
  have innermost : own = frame.1 := mine
  subst same
  refine ⟨⟨[.stampStart own, first, .clearStart own], _, rfl, by simp [waiting]⟩, ?_⟩
  rw [nests.active, innermost]
  rfl

/-- Once a note is taken back there is none any more. -/
theorem started_clearStart (board : Board) (id : Nat) :
    ((board.update id Monitor.clearStart).monitor id).started = none := by
  rw [Board.monitor_update]
  split
  · rfl
  · rename_i beyond
    have outside : board.monitors.size ≤ id := by simpa using beyond
    obtain ⟨_, _, new⟩ := board.isNew_monitor_of_ge outside
    rw [new]

/-- Once a latch is removed there is none any more. -/
theorem installed_removeLatch (board : Board) (id : Nat) :
    ((board.update id Monitor.removeLatch).monitor id).installed = none := by
  rw [Board.monitor_update]
  split
  · rfl
  · rename_i beyond
    have outside : board.monitors.size ≤ id := by simpa using beyond
    obtain ⟨_, _, new⟩ := board.isNew_monitor_of_ge outside
    rw [new]

/-- A task that fails leaves the same steps in progress. -/
theorem Nests.of_fails {error : ScanError} (nests : Nests top base board frames (task :: rest))
    {reply : Option (Reply α)} (fails : task.Fails board reply error) :
    Nests top base board (task.framesAfter frames) (Worker.unwind rest) := by
  have skipped := not_cleansUp_of_fails fails
  have same : task.framesAfter frames = frames := by cases fails <;> rfl
  rw [same, ← unwind_cons_of_not_cleansUp skipped]
  exact nests.unwind

section Steps

variable [Scalar α] {worker next : Worker α} {more : List (Task α)} {reply : Option (Reply α)}

/-- The board shows the steps in progress as a task leaves them. -/
theorem Nests.active_of_spawns (nests : Nests top base board frames (task :: rest))
    (spawns : task.Spawns board worker reply after more) :
    after.active = (task.framesAfter frames).map Prod.fst ++ base := by
  have before := nests.active
  cases spawns with
  | enter => exact congrArg (_ :: ·) before
  | leave =>
      obtain ⟨frame, outer, rfl⟩ := nests.stacked.exists_of_leave
      exact congrArg List.tail before
  | clearActive =>
      obtain ⟨-, rfl⟩ := nests.stacked.eq_nil_of_clearActive
      rfl
  | nest | prepare =>
      rw [Board.addCommands_eq]
      exact before
  | _ => exact before

/-- A task that succeeds leaves a wait in progress to those in its place, or takes it back. -/
theorem Nests.timed_of_spawns (nests : Nests top base board frames (task :: rest))
    (spawns : task.Spawns board worker reply after more)
    (started : (after.monitor id).started ≠ none) :
    Waits id (more ++ rest) ∧ after.active.head? = some id := by
  by_cases stamps : ∃ own, task = .stampStart own
  · obtain ⟨own, rfl⟩ := stamps
    cases spawns with
    | stampStart => exact nests.timed_of_stampStart started
  · have before : (board.monitor id).started ≠ none := fun none =>
      started (Task.started_of_spawns (fun own same => stamps ⟨own, same⟩) spawns none)
    obtain ⟨waits, innermost⟩ := nests.timed id before
    rcases waits.of_cons with rfl | ⟨waiting, behind⟩
    · cases spawns with
      | clearStart => exact absurd (started_clearStart board id) started
    · obtain ⟨rfl, further⟩ := Task.isWaiting_of_spawns waiting spawns
      exact ⟨behind.append further, innermost⟩

/-- A task that succeeds leaves the latch of a wait in progress to those in its place, or removes
it. -/
theorem Nests.latched_of_spawns (nests : Nests top base board frames (task :: rest))
    (spawns : task.Spawns board worker reply after more)
    (installed : (after.monitor id).installed ≠ none) :
    Latched id (more ++ rest) ∧ after.active.head? = some id := by
  by_cases installs : ∃ own, task = .installLatch own
  · obtain ⟨own, rfl⟩ := installs
    cases spawns with
    | installLatch => exact nests.latched_of_installLatch installed
  · have before : (board.monitor id).installed ≠ none := fun none =>
      installed (Task.installed_of_spawns (fun own same => installs ⟨own, same⟩) spawns none)
    obtain ⟨latched, innermost⟩ := nests.latched id before
    rcases latched.of_cons with rfl | ⟨waiting | rfl | rfl, behind⟩
    · cases spawns with
      | removeLatch => exact absurd (installed_removeLatch board id) installed
    · obtain ⟨rfl, further⟩ := Task.isWaiting_of_spawns waiting spawns
      exact ⟨behind.append fun next member => .inl (further next member), innermost⟩
    · cases spawns with
      | stampStart => exact ⟨behind, innermost⟩
    · cases spawns with
      | clearStart => exact ⟨behind, innermost⟩

/-- A task that succeeds leaves the steps in progress that its deed says. -/
theorem Nests.of_spawns (nests : Nests top base board frames (task :: rest))
    (spawns : task.Spawns board worker reply after more) :
    Nests top base after (task.framesAfter frames) (more ++ rest) where
  stacked := nests.stacked.of_spawns spawns
  active := nests.active_of_spawns spawns
  timed := fun _ => nests.timed_of_spawns spawns
  latched := fun _ => nests.latched_of_spawns spawns

end Steps

/-- The worker of a whole run begins with no step in progress. -/
theorem nests_ofSteps {steps : List (Command α)} (bare : board.active = [])
    (quiet : board.HasNoWait)
    (own : ∀ first (step : Nat) frame, (Board.numbered first steps)[step]? = some frame →
      top (1 + step) frame) (pollInterval : Duration) (runId : String) (name : Option String)
    (totalWork : UInt64) :
    Nests top [] board [] (ofSteps steps pollInterval runId name totalWork).agenda where
  stacked := .working (.outside (.apart (by simpa [ofSteps, Task.IsApart] using own)))
  active := bare
  timed := fun id started => absurd (quiet id).1 started
  latched := fun id installed => absurd (quiet id).2 installed

/-- A worker that is through with something has in front of it what comes behind that or, after an
error, what of that cleans up. -/
def HasReached (behind : List (Task α)) (worker : Worker α) : Prop :=
  worker.agenda = if worker.failure.isSome then unwind behind else behind

/-- A worker that has some tasks in front, and others behind them, is busy with the first ones or
through with them. -/
theorem Nests.busy_or_through {worker : Worker α} {inner behind : List (Task α)}
    (nests : Nests top base board frames inner) (reached : worker.HasReached (inner ++ behind)) :
    (∃ inner, inner ≠ [] ∧ worker.agenda = inner ++ behind ∧ Nests top base board frames inner) ∨
      worker.HasReached behind ∧ Nests top base board frames [] := by
  rw [HasReached] at reached
  cases failed : worker.failure.isSome with
  | false =>
      rw [failed, if_neg Bool.false_ne_true] at reached
      cases inner with
      | nil => exact .inr ⟨by rwa [HasReached, failed, if_neg Bool.false_ne_true], nests⟩
      | cons first inner => exact .inl ⟨first :: inner, List.cons_ne_nil _ _, reached, nests⟩
  | true =>
      rw [failed, if_pos rfl, unwind_append] at reached
      split at reached <;> rename_i through
      · exact .inr ⟨by rwa [HasReached, failed, if_pos rfl], through ▸ nests.unwind⟩
      · exact .inl ⟨Worker.unwind inner, through, reached, nests.unwind⟩

/-- A step of a worker leads on within something or to what comes behind it. -/
theorem Outcome.nests [Scalar α] {worker next : Worker α} {reply : Option (Reply α)}
    {behind : List (Task α)}
    (outcome : Outcome board worker task (rest ++ behind) reply after next)
    (nests : Nests top base board frames (task :: rest)) :
    (∃ inner, inner ≠ [] ∧ next.agenda = inner ++ behind ∧
        Nests top base after (task.framesAfter frames) inner) ∨
      next.HasReached behind ∧ Nests top base after (task.framesAfter frames) [] := by
  cases outcome with
  | sound sound spawns =>
      refine (nests.of_spawns spawns).busy_or_through ?_
      simp [HasReached, sound, List.append_assoc]
  | broken _ fails =>
      refine (nests.of_fails fails).busy_or_through ?_
      simp [HasReached, unwind_append]
  | cleaning failed _ spawns =>
      refine (nests.of_spawns spawns).busy_or_through ?_
      simp [HasReached, failed, List.append_assoc]

end Worker

/-! ## Steps that are over -/

section Lives

variable [Scalar α] {others : Board → Board → Prop} {board now : Board}
variable {worker current : Worker α} {past : List (Deed α)}

/-- A worker is within something, or there was a moment when it was through with it. Then the same
steps were in progress as before, and no wait. -/
theorem Life.within_or_past (life : Life others board worker past now current)
    (steady : worker.IsSteady) (spares : ∀ {now after : Board}, others now after → now.Spares after)
    {top : Nat → Frame α → Prop} {base : List Nat} {frames : List (Frame α)}
    {inner behind : List (Task α)} (busy : inner ≠ []) (agenda : worker.agenda = inner ++ behind)
    (nests : Worker.Nests top base board frames inner) :
    (∃ frames inner, inner ≠ [] ∧ current.agenda = inner ++ behind ∧
        Worker.Nests top base now frames inner) ∨
      ∃ first second middle halfway, past = first ++ second ∧
        Life others board worker first middle halfway ∧ halfway.HasReached behind ∧
        middle.active = base ∧ middle.HasNoWait ∧
        Life others middle halfway second now current := by
  induction life with
  | begin => exact .inl ⟨frames, inner, busy, agenda, nests⟩
  | wait _ other ih =>
      rcases ih with ⟨frames, inner, busy, agenda, nests⟩ | ⟨first, second, middle, halfway, split,
        before, reached, active, quiet, after⟩
      · exact .inl ⟨frames, inner, busy, agenda, nests.of_spares (spares other)⟩
      · exact .inr ⟨first, second, middle, halfway, split, before, reached, active, quiet,
          after.wait other⟩
  | @work past now next current following task rest reply life head stepped ih =>
      rcases ih with ⟨frames, inner, busy, agenda, nests⟩ | ⟨first, second, middle, halfway, split,
        before, reached, active, quiet, after⟩
      · obtain ⟨own, inner, rfl⟩ := List.exists_cons_of_ne_nil busy
        rw [head] at agenda
        obtain ⟨rfl, rfl⟩ := List.cons.inj agenda
        have outcome := Worker.outcome_of_step? (life.isSteady steady) head stepped
        rcases outcome.nests nests with ⟨inner, busy, agenda, nests⟩ | ⟨reached, nests⟩
        · exact .inl ⟨_, inner, busy, agenda, nests⟩
        · obtain ⟨active, quiet⟩ := nests.of_nil
          exact .inr ⟨past ++ [⟨task, reply⟩], [], next, following, (List.append_nil _).symm,
            life.work head stepped, reached, active, quiet, .begin⟩
      · refine .inr ⟨first, second ++ [⟨task, reply⟩], middle, halfway, ?_, before, reached, active,
          quiet, after.work head stepped⟩
        rw [split, List.append_assoc]

/-- A worker that was about to start a step is not through with it, or there was a moment when it
was so, because the step was refused or came to an end of some kind. Then the same steps were in
progress as before, and no wait. -/
theorem Life.leaves_as_found (life : Life others board worker past now current)
    (spares : ∀ {now after : Board}, others now after → now.Spares after) {id : Nat}
    {command : Command α} {behind : List (Task α)} (sound : worker.failure = none)
    (agenda : worker.agenda = .start id command :: behind) (quiet : board.HasNoWait) :
    (∃ inner, inner ≠ [] ∧ current.agenda = inner ++ behind) ∨
      ∃ first second middle halfway, past = first ++ second ∧
        Life others board worker first middle halfway ∧ halfway.HasReached behind ∧
        middle.active = board.active ∧ middle.HasNoWait ∧
        Life others middle halfway second now current := by
  have nests : Worker.Nests (fun _ _ => True) board.active board [] [.start id command] :=
    ⟨.working (.outside (.due trivial (List.forall_mem_nil _))), rfl,
      fun id started => absurd (quiet id).1 started,
      fun id installed => absurd (quiet id).2 installed⟩
  have steady : worker.IsSteady := by simp [Worker.IsSteady, sound]
  rcases life.within_or_past steady spares (List.cons_ne_nil _ _) agenda nests with
    ⟨_, inner, busy, agenda, -⟩ | past
  · exact .inl ⟨inner, busy, agenda⟩
  · exact .inr past

end Lives

end Scan
