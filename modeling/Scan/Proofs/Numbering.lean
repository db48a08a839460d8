import Scan.Proofs.Stage

/-!
# The monitors of a run

Every step that a worker still has to start has a monitor of its own, which exists and is idle. So
no step is ever run a second time, and none is refused.
-/

namespace Scan

variable {α : Type}

/-- A monitor to which nothing has happened. -/
def Monitor.IsNew (monitor : Monitor) : Prop :=
  ∃ description skippable, monitor = { description, skippable }

namespace Board

theorem status_update (board : Board) (id : Nat) (change : Monitor → Monitor)
    (kept : ∀ monitor, (change monitor).status = monitor.status) (other : Nat) :
    ((board.update id change).monitor other).status = (board.monitor other).status := by
  simp only [monitor, update, Array.getD_eq_getD_getElem?, Array.getElem?_modify]
  split
  · cases board.monitors[other]? <;> simp [kept]
  · rfl

/-- What a change of one monitor keeps of every monitor is kept on the board. -/
theorem monitor_update_of (board : Board) (id : Nat) (holds : Monitor → Prop)
    {change : Monitor → Monitor} (kept : ∀ monitor, holds monitor → holds (change monitor))
    {other : Nat} (before : holds (board.monitor other)) :
    holds ((board.update id change).monitor other) := by
  simp only [monitor, update, Array.getD_eq_getD_getElem?, Array.getElem?_modify] at before ⊢
  split
  · cases found : board.monitors[other]? with
    | none => simpa [found] using before
    | some monitor => exact kept monitor (by simpa [found] using before)
  · exact before

theorem status_update_of_ne (board : Board) {id other : Nat} (change : Monitor → Monitor)
    (different : id ≠ other) :
    ((board.update id change).monitor other).status = (board.monitor other).status := by
  simp [monitor, update, Array.getD_eq_getD_getElem?, Array.getElem?_modify, different]

@[simp] theorem size_update (board : Board) (id : Nat) (change : Monitor → Monitor) :
    (board.update id change).monitors.size = board.monitors.size := by
  simp [update]

theorem exists_addMonitor (board : Board) (description : String) (skippable : Bool) :
    ∃ fresh : Array Monitor, board.addMonitor description skippable =
        { board with monitors := board.monitors ++ fresh } ∧
      fresh.size = 1 ∧ ∀ monitor ∈ fresh, monitor.IsNew := by
  refine ⟨#[{ description, skippable }], ?_, rfl, ?_⟩
  · rw [addMonitor, Array.push_eq_append]
  · intro monitor member
    cases Array.mem_singleton.mp member
    exact ⟨description, skippable, rfl⟩

mutual

/-- The monitors of a command are added behind the others, and they are new. -/
theorem exists_addCommand (board : Board) : (command : Command α) →
    ∃ fresh : Array Monitor, board.addCommand command =
        { board with monitors := board.monitors ++ fresh } ∧
      fresh.size = command.monitorCount ∧ ∀ monitor ∈ fresh, monitor.IsNew
  | .group description children work => by
      obtain ⟨own, addedOwn, sizeOwn, newOwn⟩ := board.exists_addMonitor description
        (Command.group description children work).isSkippable
      obtain ⟨fresh, added, size, news⟩ := exists_addCommands
        (board.addMonitor description (Command.group description children work).isSkippable)
        children
      refine ⟨own ++ fresh, ?_, ?_, ?_⟩
      · rw [addCommand, added, addedOwn, Array.append_assoc]
      · rw [Array.size_append, sizeOwn, size, Command.monitorCount]
      · intro monitor member
        rcases Array.mem_append.mp member with member | member
        · exact newOwn monitor member
        · exact news monitor member
  | .delay description seconds duration => board.exists_addMonitor description true
  | .set description assignment => board.exists_addMonitor description assignment.completion.wait
  | .wait description condition => board.exists_addMonitor description true
  | .loop description sweep body work => board.exists_addMonitor description false
  | .comment description text => board.exists_addMonitor description false

/-- The monitors of commands are added behind the others, and they are new. -/
theorem exists_addCommands (board : Board) : (commands : List (Command α)) →
    ∃ fresh : Array Monitor, board.addCommands commands =
        { board with monitors := board.monitors ++ fresh } ∧
      fresh.size = Command.monitorCounts commands ∧ ∀ monitor ∈ fresh, monitor.IsNew
  | [] => ⟨#[], by simp [addCommands], rfl, by simp⟩
  | command :: rest => by
      obtain ⟨first, addedFirst, sizeFirst, newFirst⟩ := exists_addCommand board command
      obtain ⟨others, addedOthers, sizeOthers, newOthers⟩ :=
        exists_addCommands (board.addCommand command) rest
      refine ⟨first ++ others, ?_, ?_, ?_⟩
      · rw [addCommands, addedOthers, addedFirst, Array.append_assoc]
      · rw [Array.size_append, sizeFirst, sizeOthers, Command.monitorCounts]
      · intro monitor member
        rcases Array.mem_append.mp member with member | member
        · exact newFirst monitor member
        · exact newOthers monitor member

end

variable (board : Board) (commands : List (Command α))

/-- Making monitors changes nothing but the monitors. -/
theorem addCommands_eq : board.addCommands commands =
    { board with monitors := (board.addCommands commands).monitors } := by
  obtain ⟨fresh, added, -⟩ := board.exists_addCommands commands
  rw [added]

@[simp] theorem work_addCommands : (board.addCommands commands).work = board.work := by
  rw [addCommands_eq]

@[simp] theorem size_addCommands : (board.addCommands commands).monitors.size =
    board.monitors.size + Command.monitorCounts commands := by
  obtain ⟨fresh, added, size, -⟩ := board.exists_addCommands commands
  simp [added, size]

theorem monitor_addCommands_of_lt {id : Nat} (old : id < board.monitors.size) :
    (board.addCommands commands).monitor id = board.monitor id := by
  obtain ⟨fresh, added, -⟩ := board.exists_addCommands commands
  simp [added, monitor, Array.getD_eq_getD_getElem?, Array.getElem?_append_left old]

theorem isNew_addCommands_of_ge {id : Nat} (new : board.monitors.size ≤ id)
    (exists_ : id < board.monitors.size + Command.monitorCounts commands) :
    ((board.addCommands commands).monitor id).IsNew := by
  obtain ⟨fresh, added, size, news⟩ := board.exists_addCommands commands
  have inBounds : id - board.monitors.size < fresh.size := by omega
  simp only [added, monitor, Array.getD_eq_getD_getElem?, Array.getElem?_append_right new,
    Array.getElem?_eq_getElem inBounds, Option.getD_some]
  exact news _ (Array.getElem_mem inBounds)

/-- A number without a monitor stands for a new one. -/
theorem isNew_monitor_of_ge {id : Nat} (beyond : board.monitors.size ≤ id) :
    (board.monitor id).IsNew := by
  refine ⟨"", false, ?_⟩
  simp only [monitor, Array.getD_eq_getD_getElem?, Array.getElem?_eq_none beyond]
  rfl

/-- Monitors that exist, that are one apart from another, and that are idle. -/
structure HasFresh (board : Board) (ids : List Nat) : Prop where
  distinct : ids.Nodup
  exist : ∀ id ∈ ids, id < board.monitors.size
  idle : ∀ id ∈ ids, (board.monitor id).status = .idle

namespace HasFresh

variable {board commands} {after : Board} {ids others : List Nat} {id : Nat}

theorem nil (board : Board) : board.HasFresh [] :=
  ⟨List.nodup_nil, by simp, by simp⟩

theorem sublist (fresh : board.HasFresh ids) (fewer : others.Sublist ids) :
    board.HasFresh others :=
  ⟨fewer.nodup fresh.distinct, fun id member => fresh.exist id (fewer.mem member),
    fun id member => fresh.idle id (fewer.mem member)⟩

/-- A board with the same monitors, of which the idle ones are still idle, has the same fresh
ones. -/
theorem of_idle (fresh : board.HasFresh ids) (size : after.monitors.size = board.monitors.size)
    (idle : ∀ id, (board.monitor id).status = .idle → (after.monitor id).status = .idle) :
    after.HasFresh ids :=
  ⟨fresh.distinct, fun id member => size ▸ fresh.exist id member,
    fun id member => idle id (fresh.idle id member)⟩

/-- A monitor that is used leaves the others fresh. -/
theorem update (fresh : board.HasFresh (id :: ids)) (change : Monitor → Monitor) :
    (board.update id change).HasFresh ids := by
  obtain ⟨different, distinct⟩ := List.nodup_cons.mp fresh.distinct
  refine ⟨distinct, ?_, ?_⟩
  · intro other member
    rw [size_update]
    exact fresh.exist other (List.mem_cons_of_mem _ member)
  · intro other member
    rw [status_update_of_ne board change (ne_of_mem_of_not_mem member different).symm]
    exact fresh.idle other (List.mem_cons_of_mem _ member)

/-- Monitors that have just been made are fresh beside those that were so before. -/
theorem addCommands (fresh : board.HasFresh ids) (commands : List (Command α)) :
    (board.addCommands commands).HasFresh
      (List.range' board.monitors.size (Command.monitorCounts commands) ++ ids) := by
  refine ⟨?_, ?_, ?_⟩
  · refine List.nodup_append.mpr ⟨List.nodup_range', fresh.distinct, ?_⟩
    intro new newMember old oldMember
    have above := (List.mem_range'_1.mp newMember).1
    have below := fresh.exist old oldMember
    omega
  · intro id member
    rw [size_addCommands]
    rcases List.mem_append.mp member with member | member
    · exact (List.mem_range'_1.mp member).2
    · exact Nat.lt_add_right _ (fresh.exist id member)
  · intro id member
    rcases List.mem_append.mp member with member | member
    · obtain ⟨above, below⟩ := List.mem_range'_1.mp member
      obtain ⟨description, skippable, new⟩ := board.isNew_addCommands_of_ge commands above below
      rw [new]
    · rw [monitor_addCommands_of_lt board commands (fresh.exist id member)]
      exact fresh.idle id member

end HasFresh

end Board

/-! ## Monitors of the steps to come -/

/-- The monitors that a task is going to use for the first time. -/
def Task.fresh : Task α → List Nat
  | .announceStart _ id command | .start id command => List.range' id command.monitorCount
  | .enter id command => List.range' (id + 1) (command.monitorCount - 1)
  | .steps _ remaining => remaining.flatMap fun (id, command) =>
      List.range' id command.monitorCount
  | _ => []

theorem Task.fresh_of_isErrand {task : Task α} (errand : task.isErrand = true) :
    task.fresh = [] := by
  cases task <;> first | rfl | exact absurd errand Bool.false_ne_true

theorem Command.one_le_monitorCount (command : Command α) : 1 ≤ command.monitorCount := by
  cases command <;> simp [monitorCount]

/-- Commands in order have monitors in order. -/
theorem Board.flatMap_numbered (first : Nat) (commands : List (Command α)) :
    (Board.numbered first commands).flatMap
        (fun (id, command) => List.range' id command.monitorCount) =
      List.range' first (Command.monitorCounts commands) := by
  induction commands generalizing first with
  | nil => rfl
  | cons command rest ih =>
      rw [Board.numbered, List.flatMap_cons, ih, Command.monitorCounts, ← List.range'_append_1]

namespace Worker

theorem flatMap_fresh_nestedTasks (commands : List (Nat × Command α)) :
    (nestedTasks commands).flatMap Task.fresh =
      commands.flatMap fun (id, command) => List.range' id command.monitorCount := by
  induction commands with
  | nil => rfl
  | cons pair rest ih =>
      obtain ⟨id, command⟩ := pair
      rw [nestedTasks_cons, List.flatMap_cons, List.flatMap_cons, List.flatMap_cons, ih]
      rfl

/-- A step uses the monitors of its command behind its own one. -/
theorem flatMap_fresh_commandTasks (id : Nat) (command : Command α) :
    (commandTasks id command ++ [Task.settle id command, Task.leave]).flatMap Task.fresh =
      List.range' (id + 1) (command.monitorCount - 1) := by
  cases command with
  | group _ children _ =>
      rw [commandTasks, List.flatMap_append, flatMap_fresh_nestedTasks, Board.flatMap_numbered,
        Command.monitorCount, Nat.add_sub_cancel_left]
      exact List.append_nil _
  | delay | set | wait | comment | loop => rfl

theorem flatMap_fresh_stepTasks (step : Nat) (remaining : List (Nat × Command α)) :
    (stepTasks step remaining).flatMap Task.fresh =
      remaining.flatMap fun (id, command) => List.range' id command.monitorCount := by
  cases remaining with
  | nil => rfl
  | cons pair rest => simp [stepTasks, Task.fresh]

end Worker

/-! ## No step is refused -/

/-- A monitor that is idle stays so when another one is settled in its place. -/
theorem Monitor.status_advance_finalStatus {monitor : Monitor} (idle : monitor.status = .idle)
    (failure : Option ScanError) :
    (monitor.advance (Worker.finalStatus failure)).status = .idle := by
  unfold advance Worker.finalStatus
  split <;> simp [idle, StepStatus.canAdvance]

section Steps

variable [Scalar α] {board after : Board} {worker next : Worker α} {task : Task α}
variable {rest more : List (Task α)} {reply : Option (Reply α)}

/-- The worker leaves the requests as they are. -/
theorem Task.control_of_spawns (spawns : task.Spawns board worker reply after more) :
    after.control = board.control := by
  cases spawns with
  | nest | prepare => rw [Board.addCommands_eq]
  | _ => rfl

/-- The worker takes no monitor away. -/
theorem Task.size_le_of_spawns (spawns : task.Spawns board worker reply after more) :
    board.monitors.size ≤ after.monitors.size := by
  cases spawns with
  | nest | prepare =>
      rw [Board.size_addCommands]
      exact Nat.le_add_right _ _
  | start | installLatch | stampStart | clearStart | removeLatch | settle | settleLeaf =>
      exact Nat.le_of_eq (Board.size_update ..).symm
  | _ => exact Nat.le_refl _

/-- An errand changes no status. -/
theorem Task.status_of_isErrand (errand : task.isErrand = true)
    (spawns : task.Spawns board worker reply after more) :
    after.monitors.size = board.monitors.size ∧
      ∀ id, (after.monitor id).status = (board.monitor id).status := by
  cases spawns with
  | installLatch | stampStart | clearStart | removeLatch =>
      exact ⟨Board.size_update .., board.status_update _ _ fun _ => rfl⟩
  | _ => first
    | exact absurd errand Bool.false_ne_true
    | exact ⟨rfl, fun _ => rfl⟩

/-- The monitors of a task and of those behind it are fresh for the tasks in its place. -/
theorem Task.hasFresh_of_spawns {ids : List Nat} (fresh : board.HasFresh (task.fresh ++ ids))
    (spawns : task.Spawns board worker reply after more) :
    after.HasFresh (more.flatMap Task.fresh ++ ids) := by
  cases errand : task.isErrand
  case true =>
    obtain ⟨size, status⟩ := Task.status_of_isErrand errand spawns
    rw [Worker.flatMap_eq_nil_of_forall (fun _ => Task.fresh_of_isErrand)
      (Task.isErrand_of_spawns errand spawns)]
    rw [Task.fresh_of_isErrand errand] at fresh
    exact fresh.of_idle size fun id idle => (status id).trans idle
  cases spawns with
  | start id command =>
      have own : command.monitorCount = command.monitorCount - 1 + 1 :=
        (Nat.sub_add_cancel command.one_le_monitorCount).symm
      rw [Task.fresh, own, List.range'_succ, List.cons_append] at fresh
      simpa [Task.fresh] using fresh.update _
  | enter id command =>
      rw [Worker.flatMap_fresh_commandTasks]
      exact fresh.of_idle rfl fun _ idle => idle
  | nest body =>
      rw [Worker.flatMap_fresh_nestedTasks, Board.flatMap_numbered]
      exact fresh.addCommands body
  | prepare steps =>
      simpa [Task.fresh, Board.flatMap_numbered] using fresh.addCommands steps
  | round id sweep body iteration more =>
      have silent : (Worker.iterationTasks id sweep body iteration).flatMap Task.fresh = [] := by
        rw [Worker.iterationTasks, List.flatMap_append, List.flatMap_append,
          Worker.flatMap_eq_nil_of_forall (fun _ => Task.fresh_of_isErrand)
            fun _ => Worker.isErrand_of_mem_writeTasks]
        rfl
      rw [silent]
      exact fresh
  | settle id command =>
      exact fresh.of_idle (Board.size_update ..) fun other =>
        board.monitor_update_of id (·.status = .idle) fun _ idle =>
          Monitor.status_advance_finalStatus idle worker.failure
  | settleLeaf id command =>
      exact fresh.of_idle (Board.size_update ..) fun other =>
        board.monitor_update_of id (·.status = .idle) fun _ idle =>
          Monitor.status_advance_finalStatus idle none
  | steps step remaining =>
      rw [Worker.flatMap_fresh_stepTasks]
      exact fresh
  | announceStart step id command =>
      simp only [List.flatMap_cons, List.flatMap_nil, Task.fresh, List.append_nil]
      exact fresh.of_idle rfl fun _ idle => idle
  | _ => first
    | exact absurd errand.symm Bool.false_ne_true
    | exact fresh.of_idle rfl fun _ idle => idle

end Steps

/-- The monitors of all the steps that a worker still has to start are fresh. -/
def Worker.IsNumbered (board : Board) (worker : Worker α) : Prop :=
  board.HasFresh (worker.agenda.flatMap Task.fresh)

theorem Worker.isNumbered_ofSteps (board : Board) (steps : List (Command α))
    (pollInterval : Duration) (runId : String) (name : Option String) (totalWork : UInt64) :
    IsNumbered board (ofSteps steps pollInterval runId name totalWork) :=
  .nil board

section Lives

variable [Scalar α] {others : Board → Board → Prop} {board now : Board}
variable {worker current : Worker α} {past : List (Deed α)}

/-- A worker whose steps have fresh monitors goes on that way. -/
theorem Life.isNumbered (life : Life others board worker past now current)
    (steady : worker.IsSteady)
    (keeps : ∀ {now after : Board}, others now after → now.Foreign after)
    (start : worker.IsNumbered board) : current.IsNumbered now := by
  induction life with
  | begin => exact start
  | wait _ other ih =>
      exact ih.of_idle (keeps other).size fun id idle => ((keeps other).status id).trans idle
  | work life agenda stepped ih =>
      rw [Worker.IsNumbered, agenda, List.flatMap_cons] at ih
      cases Worker.outcome_of_step? (life.isSteady steady) agenda stepped with
      | sound _ spawns =>
          rw [Worker.IsNumbered, Worker.agenda_withAgenda, List.flatMap_append]
          exact Task.hasFresh_of_spawns ih spawns
      | broken =>
          exact ih.sublist ((Worker.flatMap_unwind_suffix _ _).sublist.trans
            (List.sublist_append_right _ _))
      | cleaning _ _ spawns =>
          rw [Worker.IsNumbered, Worker.agenda_withAgenda]
          apply (Task.hasFresh_of_spawns ih spawns).sublist
          rw [← List.flatMap_append]
          exact (Worker.flatMap_unwind_suffix _ _).sublist

omit [Scalar α] in
/-- A step that is due is going to use its monitor for the first time. -/
theorem Worker.mem_fresh_of_start {id : Nat} {command : Command α} {rest : List (Task α)}
    (agenda : current.agenda = .start id command :: rest) :
    id ∈ current.agenda.flatMap Task.fresh := by
  rw [agenda, List.flatMap_cons, Task.fresh, List.mem_append, List.mem_range'_1]
  exact .inl ⟨Nat.le_refl id, Nat.lt_add_of_pos_right command.one_le_monitorCount⟩

omit [Scalar α] in
/-- The monitor of a step that is due is idle, so the step is not refused. -/
theorem Worker.IsNumbered.canAdvance {id : Nat} {command : Command α} {rest : List (Task α)}
    (numbered : current.IsNumbered now) (agenda : current.agenda = .start id command :: rest) :
    (now.monitor id).status.canAdvance .running = true := by
  rw [numbered.idle id (Worker.mem_fresh_of_start agenda)]
  rfl

end Lives

end Scan
