import Mathlib.Data.List.InsertIdx
import Scan.Proofs.Audience
import Scan.Proofs.Recurrence

/-!
# Scenes in lockstep

Next to a scene stands a later one of the same sequencer, where other runs were made and other
subscribers came before. Whatever is done in the first scene can be done in the later one too, and
the other way round, and it comes to the same: the same calls to the evaluator and to channels, and
the same events for everyone who subscribed since.
-/

namespace Scan

variable {α : Type}

/-- Options that are related are both empty, or hold values that are related. -/
theorem none_or_some_of_rel {β γ : Type} {relates : β → γ → Prop} {first : Option β}
    {second : Option γ} (rel : Option.Rel relates first second) :
    (first = none ∧ second = none) ∨
      ∃ value value', first = some value ∧ second = some value' ∧ relates value value' := by
  cases rel with
  | none => exact .inl ⟨rfl, rfl⟩
  | some related => exact .inr ⟨_, _, rfl, rfl, related⟩

/-! ## Calls -/

namespace Call

/-- A call with the monitors that come behind some others. -/
def later (base : Nat) : Call → Call
  | .skipTest id => .skipTest (base + id)
  | .skipRecord id => .skipRecord (base + id)
  | .progressStatus step state performed fraction id =>
      .progressStatus step state performed fraction (base + id)
  | call => call

/-- What is left of a call and of a later one: both are over, or they go on alike. -/
inductive Rest.Recurs (base : Nat) : Rest → Rest → Prop where
  | more (call : Call) : Recurs base (.more call) (.more (call.later base))
  | result (found found' : CallResult) : Recurs base (.result found) (.result found')

theorem later_of_isEntry {call : Call} (entry : call.isEntry = true) (base : Nat) :
    call.later base = call := by
  cases call <;> first | rfl | cases entry

end Call

section Calls

variable {base : Nat} {board later : Board}

theorem Monitor.undated_recordSkip (monitor : Monitor) :
    monitor.recordSkip.undated = monitor.undated.recordSkip := by
  simp only [recordSkip, undated]
  split <;> rfl

theorem Board.Recurs.recordSkip (recurs : board.Recurs base later) (id : Nat) :
    (board.update id Monitor.recordSkip).Recurs base
      (later.update (base + id) Monitor.recordSkip) :=
  recurs.update id fun _ _ same => by
    rw [Monitor.undated_recordSkip, Monitor.undated_recordSkip, same]

theorem Board.Recurs.innermost? (recurs : board.Recurs base later) :
    later.innermost? = board.innermost?.map (base + ·) := by
  rw [Board.innermost?, recurs.active, List.head?_map]
  rfl

theorem Board.Recurs.onBus (recurs : board.Recurs base later) (bus bus' : Bus) :
    Recurs base { board with bus := bus } { later with bus := bus' } :=
  { recurs with }

theorem Board.Recurs.simulate (recurs : board.Recurs base later) (simulation : SimulationState) :
    Recurs base { board with simulation := simulation } { later with simulation := simulation } :=
  { recurs with simulation := .rfl }

/-- An access of a call recurs, at any time. -/
theorem Board.Recurs.step (recurs : board.Recurs base later) (call : Call) (totalWork : UInt64)
    (now now' : Instant) :
    (call.step totalWork now board).1.Recurs base
        ((call.later base).step totalWork now' later).1 ∧
      (call.step totalWork now board).2.Recurs base
        ((call.later base).step totalWork now' later).2 := by
  cases call with
  | pause | resume =>
      simp only [Call.later, Call.step, recurs.run]
      split
      · refine ⟨{ recurs with run := rfl, control := ?_ }, .more _⟩
        simp only [Board.requestPause, Board.requestResume, recurs.control]
      · exact ⟨recurs, .result ..⟩
  | announce state => exact ⟨recurs.publish _ _, .result ..⟩
  | abort =>
      simp only [Call.later, Call.step, recurs.run]
      split
      · refine ⟨{ recurs with control := ?_ }, .result ..⟩
        simp only [Board.requestAbort, recurs.control]
      · exact ⟨recurs, .result ..⟩
  | skip =>
      simp only [Call.later, Call.step, recurs.run]
      split
      · exact ⟨recurs, .more _⟩
      · exact ⟨recurs, .result ..⟩
  | skipInnermost | progressInnermost =>
      simp only [Call.later, Call.step, recurs.innermost?]
      cases board.innermost? with
      | none => exact ⟨recurs, .result ..⟩
      | some id => exact ⟨recurs, .more _⟩
  | skipTest id =>
      simp only [Call.later, Call.step, recurs.acceptsSkip id]
      split
      · exact ⟨recurs, .more _⟩
      · exact ⟨recurs, .result ..⟩
  | skipRecord id => exact ⟨recurs.recordSkip id, .result ..⟩
  | progress =>
      simp only [Call.later, Call.step, recurs.currentStep]
      exact ⟨recurs, .more _⟩
  | progressState step =>
      simp only [Call.later, Call.step, recurs.run]
      exact ⟨recurs, .more _⟩
  | progressPerformed step state =>
      simp only [Call.later, Call.step, recurs.work]
      exact ⟨recurs, .more _⟩
  | progressTotal step state performed =>
      simp only [Call.later, Call.step, recurs.work]
      exact ⟨recurs, .more _⟩
  | progressShare step state performed total =>
      simp only [Call.later, Call.step, recurs.work]
      exact ⟨recurs, .more _⟩
  | progressStatus => exact ⟨recurs, .result ..⟩

end Calls

/-! ## Subscribers -/

namespace Bus

variable {bus after : Bus} {seats id other : Nat}

/-- A bus on which nobody has a seat yet that is still to be given out. -/
def IsOrderly (bus : Bus) : Prop :=
  ∀ id, bus.next ≤ id → bus.pending? id = none

/-- A new subscriber has an empty inbox, and the others keep theirs. -/
theorem IsOrderly.pending?_subscribe (orderly : bus.IsOrderly) (id : Nat) :
    bus.subscribe.pending? id = if id = bus.next then some #[] else bus.pending? id := by
  cases present : bus.pending? id with
  | some inbox =>
      have seated : id ≠ bus.next := by
        rintro rfl
        simp [orderly _ (Nat.le_refl _)] at present
      rw [if_neg seated, Bus.pending?_subscribe present]
  | none =>
      have absent : bus.find? id = none := Option.map_eq_none_iff.mp present
      rw [find?] at absent
      rw [pending?, find?, subscribe, List.find?_append, absent, Option.none_or]
      by_cases seated : id = bus.next
      · simp [seated]
      · simp [seated, Ne.symm seated]

/-- A subscriber that has left has no inbox. -/
theorem pending?_unsubscribe_self (bus : Bus) (id : Nat) :
    (bus.unsubscribe id).pending? id = none := by
  rw [pending?, find?, unsubscribe, Option.map_eq_none_iff, List.find?_eq_none]
  intro subscriber member
  obtain ⟨before, -, rfl⟩ := List.mem_map.mp member
  by_cases own : before.id = id <;> simp [own]

theorem pending?_unsubscribe (different : other ≠ id) :
    (bus.unsubscribe other).pending? id = bus.pending? id :=
  pending?_map different _ fun _ => rfl

theorem pending?_collect_other (different : other ≠ id) :
    (bus.collect other).pending? id = bus.pending? id :=
  pending?_map different _ fun _ => rfl

/-- Nobody comes to an inbox by emptying it. -/
theorem pending?_collect_self (bus : Bus) (id : Nat) :
    (bus.collect id).pending? id = (bus.pending? id).map fun _ => #[] := by
  cases present : bus.pending? id with
  | some inbox => exact pending?_collect present
  | none =>
      have absent : bus.find? id = none := Option.map_eq_none_iff.mp present
      rw [find?, List.find?_eq_none] at absent
      rw [pending?, find?, collect, Option.map_none, Option.map_eq_none_iff, List.find?_eq_none]
      intro subscriber member
      obtain ⟨before, there, rfl⟩ := List.mem_map.mp member
      have missed := absent before there
      by_cases own : before.id = id
      · simpa [own] using missed
      · simp [own]

namespace IsOrderly

theorem publish (orderly : bus.IsOrderly) (event : Event) : (bus.publish event).IsOrderly :=
  fun id beyond => by rw [pending?_publish, orderly id beyond, Option.map_none]

/-- Subscribers come, leave and collect in order. -/
theorem attend (orderly : bus.IsOrderly) (act : Act α) : (act.attend bus).IsOrderly := by
  intro id beyond
  cases act with
  | subscribe =>
      change bus.next + 1 ≤ id at beyond
      change bus.subscribe.pending? id = none
      rw [orderly.pending?_subscribe, if_neg (by omega), orderly id (by omega)]
  | unsubscribe other =>
      change (bus.unsubscribe other).pending? id = none
      by_cases own : other = id
      · rw [own, pending?_unsubscribe_self]
      · rw [pending?_unsubscribe own, orderly id beyond]
  | collect other =>
      change (bus.collect other).pending? id = none
      by_cases own : other = id
      · rw [own, pending?_collect_self, orderly id beyond, Option.map_none]
      · rw [pending?_collect_other own, orderly id beyond]
  | _ => exact orderly id beyond

end IsOrderly

/-- A bus on which the seats behind some others hold what those of another bus hold, apart from names
and times. -/
structure Recurs (seats : Nat) (bus later : Bus) : Prop where
  orderly : bus.IsOrderly
  orderly' : later.IsOrderly
  next : later.next = seats + bus.next
  inboxes : ∀ id, (later.pending? (seats + id)).map (·.toList.map Event.bare) =
    (bus.pending? id).map (·.toList.map Event.bare)

/-- A bus on which everyone came before recurs as one on which nobody has come yet. -/
theorem IsOrderly.recurs (orderly : bus.IsOrderly) : Bus.Recurs bus.next {} bus where
  orderly := fun _ _ => rfl
  orderly' := orderly
  next := rfl
  inboxes := fun id => by
    rw [orderly _ (Nat.le_add_right ..)]
    rfl

namespace Recurs

variable {later : Bus}

theorem publish (recurs : bus.Recurs seats later) {event event' : Event}
    (alike : event'.bare = event.bare) : (bus.publish event).Recurs seats (later.publish event') where
  orderly := recurs.orderly.publish event
  orderly' := recurs.orderly'.publish event'
  next := recurs.next
  inboxes := fun id => by
    have inboxes := congrArg (Option.map (· ++ [event.bare])) (recurs.inboxes id)
    simpa [pending?_publish, Function.comp_def, alike] using inboxes

theorem subscribe (recurs : bus.Recurs seats later) : bus.subscribe.Recurs seats later.subscribe where
  orderly := recurs.orderly.attend (.subscribe : Act Unit)
  orderly' := recurs.orderly'.attend (.subscribe : Act Unit)
  next := congrArg (· + 1) recurs.next
  inboxes := fun id => by
    rw [recurs.orderly.pending?_subscribe, recurs.orderly'.pending?_subscribe, recurs.next]
    simp only [Nat.add_left_cancel_iff]
    split
    · rfl
    · exact recurs.inboxes id

theorem unsubscribe (recurs : bus.Recurs seats later) (id : Nat) :
    (bus.unsubscribe id).Recurs seats (later.unsubscribe (seats + id)) where
  orderly := recurs.orderly.attend (.unsubscribe id : Act Unit)
  orderly' := recurs.orderly'.attend (.unsubscribe (seats + id) : Act Unit)
  next := recurs.next
  inboxes := fun other => by
    by_cases own : id = other
    · rw [own, pending?_unsubscribe_self, pending?_unsubscribe_self]
    · rw [pending?_unsubscribe own, pending?_unsubscribe (by omega), recurs.inboxes]

theorem collect (recurs : bus.Recurs seats later) (id : Nat) :
    (bus.collect id).Recurs seats (later.collect (seats + id)) where
  orderly := recurs.orderly.attend (.collect id : Act Unit)
  orderly' := recurs.orderly'.attend (.collect (seats + id) : Act Unit)
  next := recurs.next
  inboxes := fun other => by
    by_cases own : id = other
    · have inboxes := congrArg (Option.map fun _ => ([] : List Event)) (recurs.inboxes other)
      rw [own, pending?_collect_self, pending?_collect_self]
      simpa [Function.comp_def] using inboxes
    · rw [pending?_collect_other own, pending?_collect_other (by omega), recurs.inboxes]

/-- Subscribers in front of the seats behind them change nothing there. -/
theorem attend (recurs : bus.Recurs seats later) (act : Act α)
    (before : act = .unsubscribe id ∨ act = .collect id) (low : id < seats) :
    bus.Recurs seats (act.attend later) where
  orderly := recurs.orderly
  orderly' := recurs.orderly'.attend act
  next := by
    rw [← recurs.next]
    rcases before with rfl | rfl <;> rfl
  inboxes := fun other => by
    rw [← recurs.inboxes other]
    rcases before with rfl | rfl
    · exact congrArg _ (pending?_unsubscribe (by omega))
    · exact congrArg _ (pending?_collect_other (by omega))

/-- The inboxes behind some others hold the same. -/
theorem inbox (recurs : bus.Recurs seats later) (id : Nat) :
    ((later.pending? (seats + id)).getD #[]).toList.map Event.bare =
      ((bus.pending? id).getD #[]).toList.map Event.bare := by
  have shown (inbox : Option (Array Event)) : (inbox.getD #[]).toList.map Event.bare =
      (inbox.map (·.toList.map Event.bare)).getD [] := by
    cases inbox <;> rfl
  rw [shown, shown, recurs.inboxes]

end Recurs

end Bus

/-! ## Turns -/

/-- What a history leaves behind for those that come later: how many monitors were made, runs begun
and subscriptions given out. -/
structure Legacy where
  monitors : Nat
  runs : Nat
  seats : Nat

/-- What the history of a scene leaves behind. -/
def Scene.legacy (scene : Scene α) : Legacy where
  monitors := scene.board.monitors.size
  runs := scene.workers.length
  seats := scene.board.bus.next

/-- Two acts that do the same, each in its scene. Run and subscriber are those that come as much later
as others were before them; the worker hears the same in answer, and of a time whether it is up; runs
may have other names, and calls may be made at other times. -/
inductive Act.Mirrors (legacy : Legacy) (scene later : Scene α) : Act α → Act α → Prop where
  | execute (runId runId' : String) : Mirrors legacy scene later (.execute runId) (.execute runId')
  | work (run : Nat) (reply reply' : Option (Reply α))
      (heard : ((⟨later, .work (legacy.runs + run) reply'⟩ : Turn α).deed?
          (legacy.runs + run)).map Deed.heard =
        ((⟨scene, .work run reply⟩ : Turn α).deed? run).map Deed.heard) :
      Mirrors legacy scene later (.work run reply) (.work (legacy.runs + run) reply')
  | invoke (call : Call) : Mirrors legacy scene later (.invoke call) (.invoke call)
  | access (position : Nat) (now now' : Instant) :
      Mirrors legacy scene later (.access position now) (.access position now')
  | simulate : Mirrors legacy scene later .simulate .simulate
  | conclude (result : Except ScanError Unit) :
      Mirrors legacy scene later (.conclude result) (.conclude result)
  | subscribe : Mirrors legacy scene later .subscribe .subscribe
  | unsubscribe (id : Nat) :
      Mirrors legacy scene later (.unsubscribe id) (.unsubscribe (legacy.seats + id))
  | collect (id : Nat) : Mirrors legacy scene later (.collect id) (.collect (legacy.seats + id))

/-- Whether someone who subscribed before leaves, or looks for events. -/
def Act.isAside (legacy : Legacy) : Act α → Bool
  | .unsubscribe id | .collect id => id < legacy.seats
  | _ => false

/-- Turns at which the same is done, next to what those do who subscribed before. -/
inductive Turn.Echoes (legacy : Legacy) : List (Turn α) → List (Turn α) → Prop where
  | begin : Echoes legacy [] []
  | turn {future future' : List (Turn α)} {scene later : Scene α} {act act' : Act α}
      (echoes : Echoes legacy future future') (mirrors : act.Mirrors legacy scene later act') :
      Echoes legacy (future ++ [⟨scene, act⟩]) (future' ++ [⟨later, act'⟩])
  | aside {future future' : List (Turn α)} {later : Scene α} {act' : Act α}
      (echoes : Echoes legacy future future') (aside : act'.isAside legacy = true) :
      Echoes legacy future (future' ++ [⟨later, act'⟩])

theorem Task.event?_later {base : Nat} {board later : Board} (boards : board.Recurs base later)
    (dating : Dating) (task : Task α) :
    ((task.later base dating).event? later).map Event.bare = (task.event? board).map Event.bare := by
  cases task with
  | announceWork => simp only [Task.later, Task.event?, boards.work]
  | announceFinish step id => simp only [Task.later, Task.event?, boards.status id]
  | announce event => simp [Task.later, Task.event?]
  | _ => rfl

/-- The worker of a later run has to do what that of another one has. -/
theorem Sequencer.recurs_worker (sequencer : Sequencer α) (base : Nat) (board : Board)
    (runId runId' : String) :
    (sequencer.worker runId).Recurs base ((sequencer.withBoard board).worker runId') :=
  ⟨Worker.tasksRecur_map base {} _, rfl, rfl, rfl, rfl, rfl, rfl, rfl⟩

/-! ## Scenes -/

/-- A later scene of the same sequencer, where the runs, the calls and the dry runs stand as they do
in another one. -/
structure Scene.Recurs (legacy : Legacy) (scene later : Scene α) : Prop where
  sequencer : later.sequencer = scene.sequencer.withBoard later.board
  board : scene.board.Recurs legacy.monitors later.board
  length : later.workers.length = legacy.runs + scene.workers.length
  workers : ∀ run, Option.Rel (Worker.Recurs legacy.monitors)
    scene.workers[run]? later.workers[legacy.runs + run]?
  calls : later.calls = scene.calls.map (Call.later legacy.monitors)
  passes : later.passes = scene.passes

namespace Scene.Recurs

variable {legacy : Legacy} {scene later : Scene α}

theorem isTaken (recurs : scene.Recurs legacy later) :
    later.sequencer.isTaken = scene.sequencer.isTaken := by
  have free : later.sequencer.isTaken = false ↔ scene.sequencer.isTaken = false := by
    rw [isTaken_eq_false, isTaken_eq_false, recurs.board.run, Ne, recurs.board.simulation]
  cases taken : scene.sequencer.isTaken with
  | true => simpa [taken] using free
  | false => exact free.mpr taken

/-- A scene recurs as well with another board that does. -/
theorem withBoard (recurs : scene.Recurs legacy later) {board board' : Board}
    (boards : board.Recurs legacy.monitors board') :
    (scene.withBoard board).Recurs legacy (later.withBoard board') :=
  { recurs with
    sequencer := by
      simp only [Scene.withBoard, recurs.sequencer]
      rfl
    board := boards }

/-- A worker that has gone on keeps to its place among those that recur. -/
theorem setWorker (recurs : scene.Recurs legacy later) {run : Nat} {worker worker' : Worker α}
    (workers : worker.Recurs legacy.monitors worker') :
    Recurs legacy { scene with workers := scene.workers.set run worker }
      { later with workers := later.workers.set (legacy.runs + run) worker' } :=
  { recurs with
    length := by simp [recurs.length]
    workers := fun other => by
      by_cases same : run = other
      · subst same
        have own := recurs.workers run
        by_cases inBounds : run < scene.workers.length
        · have inBounds' : legacy.runs + run < later.workers.length := by
            rw [recurs.length]
            omega
          rw [List.getElem?_set_self inBounds, List.getElem?_set_self inBounds']
          exact .some workers
        · rw [List.set_eq_of_length_le (by omega), List.set_eq_of_length_le]
          · exact own
          · rw [recurs.length]
            omega
      · rw [List.getElem?_set_ne same, List.getElem?_set_ne (by omega)]
        exact recurs.workers other }

/-- A run that begins in both scenes finds the same. -/
theorem begin_run (recurs : scene.Recurs legacy later) (runId runId' : String) :
    Recurs legacy
      { scene.withBoard { scene.board.resetControl with
          run := .running, work := WorkCounter.reset scene.sequencer.totalWork, active := [] } with
        workers := scene.workers ++ [scene.sequencer.worker runId] }
      { later.withBoard { later.board.resetControl with
          run := .running, work := WorkCounter.reset later.sequencer.totalWork, active := [] } with
        workers := later.workers ++ [later.sequencer.worker runId'] } := by
  have total : later.sequencer.totalWork = scene.sequencer.totalWork := by
    rw [recurs.sequencer]
    rfl
  have claimed : Board.Recurs legacy.monitors
      { scene.board.resetControl with
        run := .running, work := WorkCounter.reset scene.sequencer.totalWork, active := [] }
      { later.board.resetControl with
        run := .running, work := WorkCounter.reset later.sequencer.totalWork, active := [] } :=
    { recurs.board with run := rfl, control := rfl, active := rfl, work := by rw [total] }
  have begun : (scene.sequencer.worker runId).Recurs legacy.monitors
      (later.sequencer.worker runId') := by
    rw [recurs.sequencer]
    exact scene.sequencer.recurs_worker legacy.monitors later.board runId runId'
  refine { recurs.withBoard claimed with length := ?_, workers := fun run => ?_ }
  · simp [recurs.length, Nat.add_assoc]
  · rcases Nat.lt_trichotomy run scene.workers.length with old | rfl | beyond
    · rw [List.getElem?_append_left old, List.getElem?_append_left (by rw [recurs.length]; omega)]
      exact recurs.workers run
    · rw [← recurs.length, List.getElem?_concat_length, List.getElem?_concat_length]
      exact .some begun
    · rw [List.getElem?_eq_none (by simp; omega), List.getElem?_eq_none (by simp [recurs.length]; omega)]
      exact .none

variable [Scalar α] {act act' : Act α}

/-- A step of a run in both scenes comes to the same. -/
theorem work (recurs : scene.Recurs legacy later) {run : Nat} {reply reply' : Option (Reply α)}
    (heard : ((⟨later, .work (legacy.runs + run) reply'⟩ : Turn α).deed?
        (legacy.runs + run)).map Deed.heard =
      ((⟨scene, .work run reply⟩ : Turn α).deed? run).map Deed.heard) :
    Option.Rel (Recurs legacy) (scene.act? (.work run reply))
      (later.act? (.work (legacy.runs + run) reply')) := by
  simp only [Turn.deed?, if_true] at heard
  simp only [Scene.act?]
  rcases none_or_some_of_rel (recurs.workers run) with
    ⟨absent, absent'⟩ | ⟨worker, worker', found, found', workers⟩
  · simp only [absent, absent']
    exact .none
  · simp only [found, found', Option.bind_some, Option.map_map] at heard
    simp only [found, found']
    rcases none_or_some_of_rel (workers.step? recurs.board heard) with
      ⟨stays, stays'⟩ | ⟨_, _, steps, steps', boards, goesOn⟩
    · rw [stays, stays']
      exact .none
    · rw [steps, steps']
      exact .some ((recurs.withBoard boards).setWorker goesOn)

/-- Of two acts that do the same either both are possible and come to the same, or neither is. -/
theorem act? (recurs : scene.Recurs legacy later) (mirrors : act.Mirrors legacy scene later act') :
    Option.Rel (Recurs legacy) (scene.act? act) (later.act? act') := by
  cases mirrors with
  | execute runId runId' =>
      simp only [Scene.act?, Sequencer.beginRun, recurs.isTaken]
      cases scene.sequencer.isTaken with
      | true => exact .some recurs
      | false => exact .some (recurs.begin_run runId runId')
  | work run reply reply' heard => exact recurs.work heard
  | invoke call =>
      simp only [Scene.act?]
      cases entry : call.isEntry with
      | true =>
          refine .some { recurs with calls := ?_ }
          simp [recurs.calls, Call.later_of_isEntry entry]
      | false => exact .none
  | access position now now' =>
      have total : later.sequencer.totalWork = scene.sequencer.totalWork := by
        rw [recurs.sequencer]
        rfl
      simp only [Scene.act?, recurs.calls, List.getElem?_map, total]
      cases scene.calls[position]? with
      | none => exact .none
      | some call =>
          obtain ⟨boards, rests⟩ := recurs.board.step call scene.sequencer.totalWork now now'
          simp only [Option.map_some]
          generalize call.step scene.sequencer.totalWork now scene.board = made at boards rests
          generalize (call.later legacy.monitors).step scene.sequencer.totalWork now' later.board =
            made' at boards rests
          obtain ⟨board, rest⟩ := made
          obtain ⟨board', rest'⟩ := made'
          cases rests with
          | more next =>
              refine .some { recurs.withBoard boards with calls := ?_ }
              exact List.map_set.symm
          | result =>
              refine .some { recurs.withBoard boards with calls := ?_ }
              exact List.eraseIdx_map ..
  | simulate =>
      simp only [Scene.act?, Sequencer.beginSimulation, recurs.isTaken]
      cases scene.sequencer.isTaken with
      | true => exact .some recurs
      | false =>
          have claimed := recurs.withBoard (recurs.board.simulate .simulating)
          exact .some { claimed with passes := congrArg (· + 1) recurs.passes }
  | conclude result =>
      have ended := recurs.withBoard (recurs.board.simulate
        (scene.sequencer.endSimulation result).board.simulation)
      simp only [Scene.act?, recurs.passes]
      split
      · exact .some { ended with passes := rfl }
      · exact .none
  | subscribe | unsubscribe id | collect id => exact .some (recurs.withBoard (recurs.board.onBus _ _))

/-! ## What is heard and done -/

omit [Scalar α] in
/-- At turns at which the same is done the same event is published, apart from names and times. -/
theorem event? (recurs : scene.Recurs legacy later) (mirrors : act.Mirrors legacy scene later act') :
    (⟨later, act'⟩ : Turn α).event?.map Event.bare =
      (⟨scene, act⟩ : Turn α).event?.map Event.bare := by
  cases mirrors with
  | work run reply reply' heard =>
      simp only [Turn.event?]
      rcases none_or_some_of_rel (recurs.workers run) with
        ⟨absent, absent'⟩ | ⟨worker, worker', found, found', workers⟩
      · simp [absent, absent']
      · rcases workers.agenda_cases with
          ⟨done, done'⟩ | ⟨task, _, _, _, agenda, agenda', dating, rfl⟩
        · simp [found, found', done, done']
        · simp only [found, found', agenda, agenda', Option.bind_eq_bind, Option.bind_some,
            List.head?_cons]
          exact Task.event?_later recurs.board dating task
  | access position =>
      simp only [Turn.event?, recurs.calls, List.getElem?_map]
      cases scene.calls[position]? with
      | none => rfl
      | some call => cases call <;> rfl
  | _ => rfl

omit [Scalar α] in
/-- The calls that a run makes at a turn it makes in the later scene as well. -/
theorem callsIn_eq (recurs : scene.Recurs legacy later) (mirrors : act.Mirrors legacy scene later act')
    (run : Nat) :
    callsIn (deedsOf (legacy.runs + run) [⟨later, act'⟩]) = callsIn (deedsOf run [⟨scene, act⟩]) := by
  cases mirrors with
  | work other reply reply' heard =>
      by_cases same : other = run
      · subst same
        rcases none_or_some_of_rel (recurs.workers other) with
          ⟨absent, absent'⟩ | ⟨worker, worker', found, found', workers⟩
        · simp [deedsOf, Turn.deed?, absent, absent']
        · rcases workers.agenda_cases with
            ⟨done, done'⟩ | ⟨task, _, _, _, agenda, agenda', dating, rfl⟩
          · simp [deedsOf, Turn.deed?, found, found', done, done']
          · simp [deedsOf, Turn.deed?, found, found', agenda, agenda', callsIn_singleton]
      · have silent : (⟨later, .work (legacy.runs + other) reply'⟩ : Turn α).deed?
            (legacy.runs + run) = none := if_neg (by omega)
        have silent' : (⟨scene, .work other reply⟩ : Turn α).deed? run = none := if_neg same
        simp [deedsOf, silent, silent']
  | _ => rfl

omit [Scalar α] in
/-- What a subscriber takes out of its inbox at a turn it takes out in the later scene as well. -/
theorem collected (buses : scene.board.bus.Recurs legacy.seats later.board.bus)
    (mirrors : act.Mirrors legacy scene later act') (subscriber : Nat) :
    ((⟨later, act'⟩ : Turn α).collected (legacy.seats + subscriber)).map Event.bare =
      ((⟨scene, act⟩ : Turn α).collected subscriber).map Event.bare := by
  cases mirrors with
  | collect id =>
      simp only [Turn.collected, Nat.add_left_cancel_iff]
      split
      · exact buses.inbox subscriber
      · rfl
  | _ => rfl

/-- After turns at which the same is done the inboxes hold the same. -/
theorem bus (recurs : scene.Recurs legacy later)
    (buses : scene.board.bus.Recurs legacy.seats later.board.bus)
    (mirrors : act.Mirrors legacy scene later act') {next next' : Scene α}
    (acted : scene.act? act = some next) (acted' : later.act? act' = some next') :
    next.board.bus.Recurs legacy.seats next'.board.bus := by
  have events := recurs.event? mirrors
  rw [bus_of_act? acted, bus_of_act? acted']
  cases event : (⟨scene, act⟩ : Turn α).event? with
  | some event =>
      rw [event] at events
      obtain ⟨event', published, alike⟩ := Option.map_eq_some_iff.mp events
      rw [published]
      exact buses.publish alike
  | none =>
      rw [event] at events
      rw [Option.map_eq_none_iff.mp events]
      cases mirrors with
      | subscribe => exact buses.subscribe
      | unsubscribe id => exact buses.unsubscribe id
      | collect id => exact buses.collect id
      | _ => exact buses

/-- What those do who subscribed before concerns nobody who came since. -/
theorem aside (recurs : scene.Recurs legacy later)
    (buses : scene.board.bus.Recurs legacy.seats later.board.bus)
    (aside : act'.isAside legacy = true) {next' : Scene α} (acted : later.act? act' = some next') :
    scene.Recurs legacy next' ∧ scene.board.bus.Recurs legacy.seats next'.board.bus := by
  cases act' with
  | unsubscribe id =>
      cases acted
      exact ⟨recurs.withBoard (recurs.board.onBus _ _),
        buses.attend (.unsubscribe id : Act α) (.inl rfl) (of_decide_eq_true aside)⟩
  | collect id =>
      cases acted
      exact ⟨recurs.withBoard (recurs.board.onBus _ _),
        buses.attend (.collect id : Act α) (.inr rfl) (of_decide_eq_true aside)⟩
  | _ => cases aside

end Scene.Recurs

/-! ## Plays in lockstep -/

section Plays

variable [Scalar α] {legacy : Legacy} {start start' last last' : Scene α}
variable {past future future' : List (Turn α)} {scene : Scene α} {act : Act α}

omit [Scalar α] in
/-- At a turn of someone who subscribed before no run does anything. -/
theorem Act.silent_of_isAside (aside : act.isAside legacy = true) (run : Nat) :
    deedsOf run [(⟨scene, act⟩ : Turn α)] = [] := by
  cases act <;> first | rfl | cases aside

omit [Scalar α] in
/-- Nobody who subscribed since takes out anything at that turn. -/
theorem Act.collected_of_isAside (aside : act.isAside legacy = true) (subscriber : Nat) :
    (⟨scene, act⟩ : Turn α).collected (legacy.seats + subscriber) = [] := by
  cases act with
  | collect id =>
      have before : id < legacy.seats := of_decide_eq_true aside
      exact if_neg (by omega)
  | _ => rfl

/-- A play without turns ends where it begins. -/
theorem Scene.Plays.eq_of_nil (plays : start.Plays [] last) : last = start := by
  generalize whole : [] = turns at plays
  cases plays with
  | begin => rfl
  | turn => simp at whole

/-- The last turn of a play leads to its end. -/
theorem Scene.Plays.exists_of_concat (plays : start.Plays (past ++ [⟨scene, act⟩]) last) :
    start.Plays past scene ∧ scene.act? act = some last := by
  generalize whole : past ++ [⟨scene, act⟩] = turns at plays
  cases plays with
  | begin => simp at whole
  | turn plays acted =>
      obtain ⟨rfl, same⟩ := List.append_inj' whole rfl
      cases same
      exact ⟨plays, acted⟩

/-- What two plays in lockstep come to: scenes that recur, with inboxes that hold the same, the same
calls of every run, and the same events taken out by every subscriber. -/
structure Scene.Agree (legacy : Legacy) (future future' : List (Turn α)) (last last' : Scene α) :
    Prop where
  scenes : last.Recurs legacy last'
  buses : last.board.bus.Recurs legacy.seats last'.board.bus
  calls : ∀ run, callsIn (deedsOf (legacy.runs + run) future') = callsIn (deedsOf run future)
  collected : ∀ subscriber,
    (future'.flatMap (·.collected (legacy.seats + subscriber))).map Event.bare =
      (future.flatMap (·.collected subscriber)).map Event.bare

/-- Plays at whose turns the same is done from scenes that recur come to the same. -/
theorem Scene.Recurs.plays (recurs : start.Recurs legacy start')
    (buses : start.board.bus.Recurs legacy.seats start'.board.bus)
    (echoes : Turn.Echoes legacy future future') (plays : start.Plays future last)
    (plays' : start'.Plays future' last') : Scene.Agree legacy future future' last last' := by
  induction echoes generalizing last last' with
  | begin =>
      cases plays.eq_of_nil
      cases plays'.eq_of_nil
      exact ⟨recurs, buses, fun _ => rfl, fun _ => rfl⟩
  | @turn future future' scene later act act' _ mirrors ih =>
      obtain ⟨plays, acted⟩ := plays.exists_of_concat
      obtain ⟨plays', acted'⟩ := plays'.exists_of_concat
      have agree := ih plays plays'
      have next := agree.scenes.act? mirrors
      rw [acted, acted', Option.rel_some_some] at next
      exact {
        scenes := next
        buses := agree.scenes.bus agree.buses mirrors acted acted'
        calls := fun run => by
          simp only [deedsOf_append, callsIn_append, agree.calls run]
          rw [agree.scenes.callsIn_eq mirrors run]
        collected := fun subscriber => by
          simp only [List.flatMap_append, List.map_append, agree.collected subscriber,
            List.flatMap_singleton]
          rw [Scene.Recurs.collected agree.buses mirrors subscriber] }
  | @aside future future' later act' _ aside ih =>
      obtain ⟨plays', acted'⟩ := plays'.exists_of_concat
      have agree := ih plays plays'
      obtain ⟨scenes, buses⟩ := agree.scenes.aside agree.buses aside acted'
      exact {
        scenes := scenes
        buses := buses
        calls := fun run => by
          rw [deedsOf_append, Act.silent_of_isAside aside, List.append_nil, agree.calls run]
        collected := fun subscriber => by
          rw [List.flatMap_append, List.flatMap_singleton, Act.collected_of_isAside aside,
            List.append_nil, agree.collected subscriber] }

end Plays

end Scan
