import Scan.Proofs.Company

/-!
# Events of a play

At every turn of a play at most one event is published: by the task that a worker does, or by a call
that has changed the state of the run. Besides that only the subscribers themselves change what is
on the bus.
-/

namespace Scan

variable {α : Type}

/-- The event that a task publishes, if it publishes one. -/
def Task.event? (board : Board) : Task α → Option Event
  | .announceStart step _ command => some (.stepStarted step command.description)
  | .announceWork performed => some (.workPerformed performed board.work.total)
  | .announceFinish step id => some (.stepFinished step (board.monitor id).status)
  | .announce event => some event
  | _ => none

/-- The event that is published at a turn, if there is one. -/
def Turn.event? (turn : Turn α) : Option Event :=
  match turn.act with
  | .work run _ => do
      let worker ← turn.scene.workers[run]?
      let task ← worker.agenda.head?
      task.event? turn.scene.board
  | .access position _ =>
      match turn.scene.calls[position]? with
      | some (.announce state) => some (.stateChanged state)
      | _ => none
  | _ => none

/-- Whether an event tells of the steps of a run, and not of its state. -/
def Event.isOfSteps : Event → Bool
  | .stepStarted .. | .workPerformed .. | .stepFinished .. => true
  | _ => false

/-- What an act does to the subscriptions. -/
def Act.attend (bus : Bus) : Act α → Bus
  | .subscribe => bus.subscribe
  | .unsubscribe id => bus.unsubscribe id
  | .collect id => bus.collect id
  | _ => bus

variable [Scalar α]

/-- A task publishes its event and nothing else. -/
theorem Task.bus_of_spawns {board after : Board} {worker : Worker α} {task : Task α}
    {reply : Option (Reply α)} {more : List (Task α)}
    (spawns : task.Spawns board worker reply after more) :
    after.bus = (task.event? board).elim board.bus board.bus.publish := by
  cases spawns with
  | nest | prepare =>
      rw [Board.addCommands_eq]
      rfl
  | _ => rfl

omit [Scalar α] in
/-- A task that fails publishes nothing. -/
theorem Task.event?_of_fails {board : Board} {task : Task α} {reply : Option (Reply α)}
    {error : ScanError} (fails : task.Fails board reply error) : task.event? board = none := by
  cases fails <;> rfl

/-- A step publishes the event of the task that is done. -/
theorem Worker.bus_of_step? {board after : Board} {worker next : Worker α} {task : Task α}
    {rest : List (Task α)} {reply : Option (Reply α)} (agenda : worker.agenda = task :: rest)
    (stepped : worker.step? board reply = some (after, next)) :
    after.bus = (task.event? board).elim board.bus board.bus.publish := by
  obtain ⟨_, _, same, result⟩ := step?_cases stepped
  obtain ⟨rfl, rfl⟩ := List.cons.inj (agenda.symm.trans same)
  rcases result with ⟨more, spawns, -⟩ | ⟨error, fails, rfl, -⟩
  · exact Task.bus_of_spawns spawns
  · rw [Task.event?_of_fails fails]
    rfl

omit [Scalar α] in
/-- A call publishes nothing but the change of state that it has made. -/
theorem Call.bus_step (totalWork : UInt64) (now : Instant) (board : Board) (call : Call) :
    (call.step totalWork now board).1.bus =
      match call with
      | .announce state => board.bus.publish (.stateChanged state)
      | _ => board.bus := by
  cases call <;> simp only [step] <;> (try split) <;> rfl

namespace Scene

variable {scene next : Scene α} {act : Act α}

/-- What is published at a turn is its event. -/
theorem bus_of_act? (acted : scene.act? act = some next) :
    next.board.bus = ((⟨scene, act⟩ : Turn α).event?).elim (act.attend scene.board.bus)
      scene.board.bus.publish := by
  cases act with
  | execute runId =>
      simp only [act?, Sequencer.beginRun] at acted
      cases taken : scene.sequencer.isTaken <;> simp only [taken] at acted <;> cases acted <;> rfl
  | work run reply =>
      obtain ⟨worker, board, after, found, stepped, rfl⟩ := exists_of_work acted
      obtain ⟨task, rest, agenda, -⟩ := Worker.step?_cases stepped
      have event : (⟨scene, .work run reply⟩ : Turn α).event? = task.event? scene.board := by
        simp [Turn.event?, found, agenda]
      rw [event]
      exact Worker.bus_of_step? agenda stepped
  | invoke call =>
      simp only [act?] at acted
      split at acted <;> cases acted
      rfl
  | access position now =>
      simp only [act?] at acted
      cases found : scene.calls[position]? with
      | none => simp [found] at acted
      | some call =>
          have published := call.bus_step scene.sequencer.totalWork now scene.board
          simp only [found] at acted
          split at acted <;> rename_i board _ stepped <;> rw [stepped] at published <;>
            cases acted <;> simp only [Turn.event?, found] <;> cases call <;> exact published
  | simulate =>
      simp only [act?, Sequencer.beginSimulation] at acted
      cases taken : scene.sequencer.isTaken <;> simp only [taken] at acted <;> cases acted <;> rfl
  | conclude result =>
      simp only [act?] at acted
      split at acted <;> cases acted
      rfl
  | subscribe | unsubscribe | collect =>
      cases acted
      rfl

end Scene

end Scan
