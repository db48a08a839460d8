import Scan.Proofs.Expansion
import Scan.Proofs.Numbering

/-!
# The accounts of a run

Two ledgers of a whole run: the units of work that it counts, which are those of the expansion of
its steps, and the top-level steps that it starts and closes. The counter on the board and the
notes of the worker agree with them.
-/

namespace Scan

variable {α : Type}

/-! ## Units of work -/

namespace Task

/-- The units that a task counts. -/
def counts : Task α → List (WorkUnit α)
  | .countUnit _ unit => [unit]
  | _ => []

/-- The units that a task leads to when nothing fails. -/
def units : Task α → List (WorkUnit α)
  | .announceStart _ _ command | .start _ command | .enter _ command => command.expand
  | .settle _ command => if command.isComposite then [] else [.leaf command]
  | .iterate _ sweep body iteration => sweep.rounds (Command.expandAll body) iteration
  | .nest body => Command.expandAll body
  | .countUnit _ unit => [unit]
  | .prepare commands => Command.expandAll commands
  | .steps _ remaining => Command.expandAll (remaining.map Prod.snd)
  | _ => []

end Task

/-- The numbers of monitors have no part in what commands are. -/
@[simp] theorem Board.map_snd_numbered (first : Nat) (commands : List (Command α)) :
    (Board.numbered first commands).map Prod.snd = commands := by
  induction commands generalizing first with
  | nil => rfl
  | cons command rest ih => rw [Board.numbered, List.map_cons, ih]

namespace Worker

theorem units_of_isErrand {task : Task α} (errand : task.isErrand = true) : task.units = [] := by
  cases task <;> first | rfl | exact absurd errand Bool.false_ne_true

@[simp] theorem flatMap_units_nestedTasks (commands : List (Nat × Command α)) :
    (nestedTasks commands).flatMap Task.units =
      Command.expandAll (commands.map Prod.snd) := by
  induction commands with
  | nil => rfl
  | cons pair rest ih =>
      obtain ⟨id, command⟩ := pair
      rw [nestedTasks_cons, List.flatMap_cons, List.flatMap_cons, ih]
      rfl

/-- A step counts the units of its command, the last of them when it is settled. -/
theorem flatMap_units_commandTasks (id : Nat) (command : Command α) :
    (commandTasks id command ++ [Task.settle id command, Task.leave]).flatMap Task.units =
      command.expand := by
  cases command with
  | group _ children _ =>
      rw [commandTasks, List.flatMap_append, flatMap_units_nestedTasks, Board.map_snd_numbered]
      exact List.append_nil _
  | loop _ sweep body _ => exact List.append_nil _
  | delay | set | wait | comment => rfl

theorem flatMap_units_iterationTasks [Scalar α] (id : Nat) (sweep : Sweep α)
    (body : List (Command α)) {iteration : Nat} (more : iteration < sweep.iterations) :
    (iterationTasks id sweep body iteration).flatMap Task.units =
      sweep.rounds (Command.expandAll body) iteration := by
  have silent : (writeTasks id sweep.channel sweep.completion (sweep.value iteration)).flatMap
      Task.units = [] :=
    flatMap_eq_nil_of_forall (fun _ => units_of_isErrand) fun _ => isErrand_of_mem_writeTasks
  rw [iterationTasks, List.flatMap_append, List.flatMap_append, silent,
    sweep.rounds_of_lt _ more]
  simp [Task.units]

theorem flatMap_units_stepTasks (step : Nat) (remaining : List (Nat × Command α)) :
    (stepTasks step remaining).flatMap Task.units =
      Command.expandAll (remaining.map Prod.snd) := by
  cases remaining with
  | nil => rfl
  | cons pair rest => simp [stepTasks, Task.units, Command.expandAll]

end Worker

section Units

variable [Scalar α]

/-- The ledger of the units of work. -/
def Ledger.units (α : Type) [Scalar α] : Ledger α (WorkUnit α) where
  does := Task.counts
  due := Task.units
  balance := by
    intro board after worker task reply more sound spawns
    cases errand : task.isErrand
    case true =>
      have nothing : Task.counts task = [] := by
        cases task <;> first | rfl | exact absurd errand Bool.false_ne_true
      rw [Worker.units_of_isErrand errand, nothing, Worker.flatMap_eq_nil_of_forall
        (fun _ => Worker.units_of_isErrand) (Task.isErrand_of_spawns errand spawns)]
      rfl
    cases spawns with
    | enter id command => exact (Worker.flatMap_units_commandTasks id command).symm
    | round id sweep body iteration more =>
        exact (Worker.flatMap_units_iterationTasks id sweep body more).symm
    | roundsOver id sweep body iteration ended =>
        exact sweep.rounds_of_le _ (Nat.le_of_not_lt ended)
    | steps step remaining => exact (Worker.flatMap_units_stepTasks step remaining).symm
    | settle id command silent =>
        have composite : command.isComposite = true := by simpa [sound] using silent
        simp [Task.units, Task.counts, composite]
    | settleLeaf id command sound leaf => simp [Task.units, Task.counts, leaf]
    | _ => first | exact absurd errand.symm Bool.false_ne_true | simp [Task.units, Task.counts]

/-- A run is bound to do the units of its steps. -/
theorem Ledger.left_units_ofSteps (steps : List (Command α)) (pollInterval : Duration)
    (runId : String) (name : Option String) (totalWork : UInt64) :
    (Ledger.units α).left (Worker.ofSteps steps pollInterval runId name totalWork).agenda =
      Command.expandAll steps := by
  simp [left, units, Worker.ofSteps, Task.units]

/-- The counter goes up by one for every unit, and by nothing else. -/
theorem Task.performed_of_spawns {board after : Board} {worker : Worker α} {task : Task α}
    {reply : Option (Reply α)} {more : List (Task α)}
    (spawns : task.Spawns board worker reply after more) :
    after.work.performed = board.work.performed + UInt64.ofNat task.counts.length := by
  cases spawns with
  | countUnit => rfl
  | nest | prepare => simp [Task.counts]
  | _ => exact (UInt64.add_zero _).symm

/-- Nothing that a worker does changes how many units there are. -/
theorem Task.total_of_spawns {board after : Board} {worker : Worker α} {task : Task α}
    {reply : Option (Reply α)} {more : List (Task α)}
    (spawns : task.Spawns board worker reply after more) :
    after.work.total = board.work.total := by
  cases spawns with
  | nest | prepare => rw [Board.work_addCommands]
  | _ => rfl

/-- The counter goes on to count out of the same number of units. -/
theorem Life.total_eq {others : Board → Board → Prop} {board now : Board}
    {worker current : Worker α} {past : List (Deed α)}
    (life : Life others board worker past now current) (steady : worker.IsSteady)
    (keeps : ∀ {now after : Board}, others now after → after.work = now.work) :
    now.work.total = board.work.total := by
  induction life with
  | begin => rfl
  | wait _ other ih => rw [keeps other, ih]
  | work life agenda stepped ih =>
      rw [← ih]
      cases Worker.outcome_of_step? (life.isSteady steady) agenda stepped with
      | sound _ spawns | cleaning _ _ spawns => exact Task.total_of_spawns spawns
      | broken => rfl

/-- The counter shows how many units were done since the beginning. -/
theorem Life.performed_eq {others : Board → Board → Prop} {board now : Board}
    {worker current : Worker α} {past : List (Deed α)}
    (life : Life others board worker past now current) (steady : worker.IsSteady)
    (keeps : ∀ {now after : Board}, others now after → after.work = now.work) :
    now.work.performed =
      board.work.performed + UInt64.ofNat ((Ledger.units α).done past).length := by
  induction life with
  | begin => simp
  | wait _ other ih => rw [keeps other, ih]
  | work life agenda stepped ih =>
      rw [Ledger.done_append, Ledger.done_singleton, List.length_append, UInt64.ofNat_add,
        ← UInt64.add_assoc, ← ih]
      cases Worker.outcome_of_step? (life.isSteady steady) agenda stepped with
      | sound _ spawns => exact Task.performed_of_spawns spawns
      | cleaning _ _ spawns => exact Task.performed_of_spawns spawns
      | broken _ fails => cases fails <;> exact (UInt64.add_zero _).symm

end Units

/-! ## Top-level steps -/

/-- The three marks that a top-level step leaves: the word that it starts, the word that it is over,
and the note of how it ended. -/
inductive Mark where
  | opened
  | finished
  | closed

namespace Mark

/-- The top-level step that a task marks. -/
def does : Mark → Task α → List Nat
  | .opened, .announceStart step _ _ => [step]
  | .finished, .announceFinish step _ => [step]
  | .closed, .closeStep step _ => [step]
  | _, _ => []

/-- The top-level steps that are marked by what a task leads to. -/
def due (mark : Mark) : Task α → List Nat
  | .announceStart step id command =>
      match mark with
      | .finished => [step]
      | mark => mark.does (.announceStart step id command)
  | .steps step remaining => List.range' step remaining.length
  | .prepare commands => List.range' 1 commands.length
  | task => mark.does task

variable (mark : Mark)

theorem does_of_isNested {task : Task α} (nested : task.isNested = true) :
    mark.does task = [] := by
  cases mark <;> cases task <;> first | rfl | exact absurd nested Bool.false_ne_true

theorem due_of_isNested {task : Task α} (nested : task.isNested = true) : mark.due task = [] := by
  cases mark <;> cases task <;> first | rfl | exact absurd nested Bool.false_ne_true

theorem flatMap_due_stepTasks (step : Nat) (remaining : List (Nat × Command α)) :
    (Worker.stepTasks step remaining).flatMap mark.due = List.range' step remaining.length := by
  cases remaining with
  | nil => rfl
  | cons pair rest =>
      cases mark <;> simp [Worker.stepTasks, due, does, List.range'_succ]

end Mark

@[simp] theorem Board.length_numbered (first : Nat) (commands : List (Command α)) :
    (Board.numbered first commands).length = commands.length := by
  rw [← List.length_map, Board.map_snd_numbered]

/-- The ledger of the top-level steps by one of their marks. -/
def Ledger.steps (α : Type) [Scalar α] (mark : Mark) : Ledger α Nat where
  does := mark.does
  due := mark.due
  balance := by
    intro board after worker task reply more sound spawns
    cases nested : task.isNested
    case true =>
      rw [mark.due_of_isNested nested, mark.does_of_isNested nested,
        Worker.flatMap_eq_nil_of_forall (fun _ => mark.due_of_isNested)
          (Task.isNested_of_spawns nested spawns)]
      rfl
    cases spawns with
    | steps step remaining =>
        rw [mark.flatMap_due_stepTasks]
        cases mark <;> rfl
    | _ => first
      | exact absurd nested.symm Bool.false_ne_true
      | cases mark <;> simp [Mark.due, Mark.does]

/-- A run is bound to start and to close its steps in order. -/
theorem Ledger.left_steps_ofSteps [Scalar α] (mark : Mark) (steps : List (Command α))
    (pollInterval : Duration) (runId : String) (name : Option String) (totalWork : UInt64) :
    (Ledger.steps α mark).left
        (Worker.ofSteps steps pollInterval runId name totalWork).agenda =
      List.range' 1 steps.length := by
  cases mark <;> simp [left, Ledger.steps, Worker.ofSteps, Mark.due, Mark.does]

namespace Worker

theorem finalState_eq_finished {failure : Option ScanError} :
    finalState failure = .finished ↔ failure = none := by
  cases failure with
  | none => simp [finalState]
  | some error => cases error <;> simp [finalState]

theorem completed_noting {worker : Worker α} {board : Board} {task : Task α}
    {reply : Option (Reply α)} (other : Mark.closed.does task = []) :
    (worker.noting board task reply).completed = worker.completed := by
  unfold noting
  split
  · cases other
  all_goals rfl

end Worker

section Lives

variable [Scalar α] {others : Board → Board → Prop} {board now : Board} {steps : List (Command α)}
variable {pollInterval : Duration} {runId : String} {name : Option String} {totalWork : UInt64}
variable {current : Worker α} {past : List (Deed α)}

/-- As long as a run has not failed, its worker has noted how many steps are closed. -/
theorem Life.completed_eq
    (life : Life others board (.ofSteps steps pollInterval runId name totalWork) past now current)
    (sound : current.failure = none) :
    current.completed = ((Ledger.steps α .closed).done past).length := by
  have steady : (Worker.ofSteps steps pollInterval runId name totalWork).IsSteady := nofun
  induction life with
  | begin => rfl
  | wait _ _ ih => exact ih sound
  | @work past now _ worker _ task rest reply life agenda stepped ih =>
      rw [Ledger.done_append, Ledger.done_singleton, List.length_append]
      cases Worker.outcome_of_step? (life.isSteady steady) agenda stepped with
      | broken => cases sound
      | cleaning failed => simp_all
      | sound before spawns =>
          rw [Worker.completed_withAgenda]
          cases spawns with
          | closeStep step description =>
              -- the step that is closed is the one after those that are
              have account := (Ledger.steps α .closed).done_append_left life steady before
              rw [Ledger.left_steps_ofSteps, Ledger.left, agenda, List.flatMap_cons] at account
              obtain ⟨count, _, done, rest⟩ := List.range'_eq_append_iff.mp account.symm
              have following : 1 + count * 1 = step := (List.range'_eq_cons_iff.mp rest.symm).1
              have noted :
                  (worker.noting now (.closeStep step description) none).completed = step := by
                simp [Worker.noting, Worker.closing, before]
              rw [noted, done, List.length_range']
              change step = count + 1
              omega
          | _ => rw [Worker.completed_noting rfl, ih before]; rfl

/-- A run that its worker reports as finished has nothing left to do. -/
theorem Life.agenda_of_finished {report : RunReport}
    (life : Life others board (.ofSteps steps pollInterval runId name totalWork) past now current)
    (keeps : ∀ {now after : Board}, others now after → after.work = now.work)
    (reported : current.report = some report) (finished : report.state = .finished) :
    current.failure = none ∧ current.Reports now report ∧
      (Ledger.units α).left current.agenda = [] ∧
      ∀ mark, (Ledger.steps α mark).left current.agenda = [] := by
  have stage := life.stage nofun keeps (Worker.stage_ofSteps board ..)
  cases stage with
  | working _ _ _ unreported => simp [unreported] at reported
  | reporting own agenda reports =>
      cases reports.kept.symm.trans reported
      refine ⟨Worker.finalState_eq_finished.mp (reports.state ▸ finished), reports, ?_, ?_⟩
      · simp [agenda, Ledger.left, Ledger.units, Task.units]
      · intro mark
        cases mark <;> simp [agenda, Ledger.left, Ledger.steps, Mark.due, Mark.does]
  | closed own agenda reports =>
      cases reports.kept.symm.trans reported
      refine ⟨Worker.finalState_eq_finished.mp (reports.state ▸ finished), reports, ?_, ?_⟩
      · apply List.flatMap_eq_nil_iff.mpr
        intro task member
        obtain ⟨event, rfl⟩ := Worker.exists_event_of_suffix agenda member
        rfl
      · intro mark
        apply List.flatMap_eq_nil_iff.mpr
        intro task member
        obtain ⟨event, rfl⟩ := Worker.exists_event_of_suffix agenda member
        cases mark <;> rfl

/-- A run that is reported as finished has done every unit of its steps and closed every step. -/
theorem Life.accounts_of_finished {report : RunReport}
    (life : Life others board (.ofSteps steps pollInterval runId name totalWork) past now current)
    (keeps : ∀ {now after : Board}, others now after → after.work = now.work)
    (reported : current.report = some report) (finished : report.state = .finished) :
    (Ledger.units α).done past = Command.expandAll steps ∧
      (∀ mark, (Ledger.steps α mark).done past = List.range' 1 steps.length) ∧
      report.stepsCompleted = steps.length ∧
      report.workPerformed = now.work.performed := by
  obtain ⟨sound, reports, units, marks⟩ := life.agenda_of_finished keeps reported finished
  have steps_done : ∀ mark, (Ledger.steps α mark).done past = List.range' 1 steps.length := by
    intro mark
    have account := (Ledger.steps α mark).done_append_left life nofun sound
    rwa [marks mark, List.append_nil, Ledger.left_steps_ofSteps] at account
  refine ⟨?_, steps_done, ?_, reports.workPerformed⟩
  · have account := (Ledger.units α).done_append_left life nofun sound
    rwa [units, List.append_nil, Ledger.left_units_ofSteps] at account
  · rw [reports.stepsCompleted, life.completed_eq sound, steps_done, List.length_range']

end Lives

end Scan
