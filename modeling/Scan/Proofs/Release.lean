import Scan.Proofs.Fulfilment

/-!
# What is left of a wait after a request to skip

Once a request to skip has reached a step, its wait is over at the end of the next rest. On the way
there the step does little more: it may look once more for what it waits for, and at the time. If it
finds then that its time is up it fails, although it was asked to go on.
-/

namespace Scan

variable {α : Type}

/-! ## What is left to do -/

/-- What a task costs, at some prices for a look at a channel and for a look at a limit of time, and
at another one for everything else. -/
def Task.price (probe check other : Nat) : Task α → Nat
  | .probe .. => probe
  | .checkLimit .. => check
  | _ => other

/-- What a task and those that it leads to cost at the most, if the wait is over at the end of the
next rest. -/
def Task.bill (probe check other : Nat) : Task α → Nat
  | .resolve .. => probe + check + 9 * other
  | .baseline .. => probe + check + 8 * other
  | .armPoll _ => probe + check + 3 * other
  | .probe .. => probe + check + other
  | .checkLimit .. => check + other
  | .armDelay .. => 4 * other
  | .heedAbort .. => 3 * other
  | .checkDeadline .. => 2 * other
  | _ => other

/-- What some tasks cost at the most. -/
def Worker.bill (probe check other : Nat) (tasks : List (Task α)) : Nat :=
  (tasks.map (Task.bill probe check other)).sum

/-- What some deeds have cost. -/
def spent (probe check other : Nat) (past : List (Deed α)) : Nat :=
  (past.map fun deed => deed.task.price probe check other).sum

section Prices

variable {probe check other : Nat} {task : Task α} {tasks more : List (Task α)}

theorem Task.price_le_bill : task.price probe check other ≤ task.bill probe check other := by
  cases task <;> simp only [price, bill] <;> omega

@[simp] theorem Worker.bill_nil : Worker.bill probe check other ([] : List (Task α)) = 0 := rfl

@[simp] theorem Worker.bill_cons : Worker.bill probe check other (task :: tasks) =
    task.bill probe check other + Worker.bill probe check other tasks := by
  simp [Worker.bill]

@[simp] theorem Worker.bill_append : Worker.bill probe check other (tasks ++ more) =
    Worker.bill probe check other tasks + Worker.bill probe check other more := by
  simp [Worker.bill]

theorem Worker.bill_pollTasks (poll : Poll α) :
    Worker.bill probe check other (pollTasks poll) = probe + check + 7 * other := by
  simp only [pollTasks, bill_cons, bill_nil, Task.bill]
  omega

theorem Worker.bill_purposeTasks_le (probe check other id : Nat) (value : α) (purpose : Purpose α) :
    Worker.bill probe check other (purposeTasks id value purpose) ≤ probe + check + 8 * other := by
  cases purpose with
  | assign =>
      rw [purposeTasks, writeTasks, bill_cons]
      split
      · simp only [bill_pollTasks, Task.bill]
        omega
      · simp only [bill_nil, Task.bill]
        omega
  | await =>
      rw [purposeTasks]
      split
      · simp only [bill_cons, bill_nil, Task.bill]
        omega
      · rw [awaitTasks, bill_pollTasks]
        omega

/-- What a step does by itself leads to less and less, if its wait is over at the end of a rest. -/
theorem Task.bill_of_spawns [Scalar α] {board after : Board} {worker : Worker α}
    {reply : Option (Reply α)} (errand : task.isErrand = true)
    (spawns : task.Spawns board worker reply after more)
    (short : ∀ id, task.rests? = some id → (board.monitor id).isCutShort = true) :
    task.price probe check other + Worker.bill probe check other more ≤
      task.bill probe check other := by
  cases spawns with
  | literal id value purpose | evaluated id text purpose value =>
      have least := Worker.bill_purposeTasks_le probe check other id value purpose
      simp only [price, bill]
      omega
  | baseline =>
      rw [Worker.awaitTasks, Worker.bill_pollTasks]
      simp only [price, bill]
      omega
  | delayGoesOn _ _ _ uncut => simp [short _ rfl] at uncut
  | pollGoesOn _ _ uncut => simp [short _ rfl] at uncut
  | _ => first
    | exact absurd errand Bool.false_ne_true
    | simp only [price, bill, Worker.bill_cons, Worker.bill_nil]
      omega

@[simp] theorem spent_append (first second : List (Deed α)) :
    spent probe check other (first ++ second) =
      spent probe check other first + spent probe check other second := by
  simp [spent]

theorem spent_singleton (deed : Deed α) :
    spent probe check other [deed] = deed.task.price probe check other := by
  simp [spent]

end Prices

/-! ## Waits that will be cut short -/

/-- Whether a request to skip has reached a step: it is held for the wait ahead, or the wait in
progress is cut short. -/
def WaitPhase.Released (monitor : Monitor) : WaitPhase → Prop
  | .ahead => monitor.installed = none ∧ monitor.skipPending = true
  | .waiting => monitor.isCutShort = true
  | .past => True

theorem Monitor.isCutShort_iff {monitor : Monitor} : monitor.isCutShort = true ↔
    ∃ latch, monitor.installed = some latch ∧ monitor.latches[latch]? = some true := by
  unfold isCutShort isReleased
  split
  · rename_i latch installed
    simp only [installed, Option.some.injEq, exists_eq_left', Array.getD_eq_getD_getElem?]
    cases monitor.latches[latch]? <;> simp
  · rename_i bare
    simp [bare]

/-- A request that is passed on reaches its step. -/
theorem WaitPhase.Fits.released {phase : WaitPhase} {monitor : Monitor}
    (fits : phase.Fits monitor) : phase.Released monitor.recordSkip := by
  cases phase with
  | ahead =>
      have bare : monitor.installed = none := fits
      rw [Monitor.recordSkip, bare]
      exact ⟨rfl, rfl⟩
  | waiting =>
      obtain ⟨latch, installed, inBounds⟩ := fits
      rw [Monitor.recordSkip, installed]
      refine Monitor.isCutShort_iff.mpr ⟨latch, installed, ?_⟩
      simp [Monitor.release, inBounds]
  | past => trivial

/-- A request that has reached a step is not taken back by another one. -/
theorem WaitPhase.Released.recordSkip {phase : WaitPhase} {monitor : Monitor}
    (released : phase.Released monitor) : phase.Released monitor.recordSkip := by
  cases phase with
  | ahead =>
      have fits : WaitPhase.ahead.Fits monitor := released.1
      exact fits.released
  | waiting =>
      obtain ⟨latch, installed, own⟩ := Monitor.isCutShort_iff.mp released
      have fits : WaitPhase.waiting.Fits monitor :=
        ⟨latch, installed, (Array.getElem?_eq_some_iff.mp own).1⟩
      exact fits.released
  | past => trivial

namespace Worker

section Steps

variable [Scalar α] {past : List (Deed α)} {id : Nat} {command : Command α} {cut : Prop}
variable {phase : WaitPhase} {board after : Board} {worker next : Worker α} {task : Task α}
variable {front rest behind more : List (Task α)} {reply : Option (Reply α)}

/-- What a step that waits does by itself belongs to it. -/
theorem Body.isOf (body : Body past id command cut phase front) :
    ∀ task ∈ front, task.IsOf (id, command) := by
  have awaited : ∀ {task : Task α}, task.Awaits past id command → task.IsOf (id, command) := by
    intro task awaits
    cases awaits with
    | armPoll own | probe own | checkLimit own | restPoll own => exact own.id_eq
    | _ => rfl
  intro task member
  cases body with
  | through => cases member
  | writing own =>
      rcases List.mem_cons.mp member with rfl | member
      · trivial
      · exact isOf_of_mem_pollTasks own.id_eq member
  | beginning awaits | noting awaits | waiting awaits =>
      simp only [List.mem_cons, List.not_mem_nil, or_false] at member
      rcases member with rfl | rfl | rfl | rfl | rfl <;> first | rfl | exact awaited awaits
  | pausing own =>
      simp only [List.mem_cons, List.not_mem_nil, or_false] at member
      rcases member with rfl | rfl | rfl | rfl <;> first | rfl | trivial | exact own.id_eq
  | _ =>
      simp only [List.mem_cons, List.not_mem_nil, or_false] at member
      rcases member with rfl | rfl <;> rfl

/-- After an error a step that waits only takes its wait back. -/
theorem Body.cleansUp_of_mem_unwind (body : Body past id command cut phase front) :
    ∀ task ∈ unwind front, task.cleansUp = true := by
  have awaited : ∀ {task : Task α}, task.Awaits past id command → task.cleansUp = false := by
    intro task awaits
    cases awaits <;> rfl
  have tail : ∀ task ∈ ([.clearStart id, .removeLatch id] : List (Task α)),
      task.cleansUp = true := by
    simp [Task.cleansUp]
  cases body with
  | assigning | comparing | measuring | through => exact List.forall_mem_nil _
  | writing own =>
      rw [← own.id_eq] at tail
      exact tail
  | beginning awaits =>
      rw [unwind_cons_of_not_cleansUp rfl, unwind_cons_of_not_cleansUp rfl,
        unwind_cons_of_not_cleansUp (awaited awaits)]
      exact tail
  | noting awaits =>
      rw [unwind_cons_of_not_cleansUp rfl, unwind_cons_of_not_cleansUp (awaited awaits)]
      exact tail
  | waiting awaits =>
      rw [unwind_cons_of_not_cleansUp (awaited awaits)]
      exact tail
  | pausing | done => exact tail
  | noted => exact fun task member => tail task (List.mem_cons_of_mem _ member)

/-- What a step that waits comes to at the most once a request to skip has reached it. -/
theorem Body.bill_le (body : Body past id command cut phase front) (probe check other : Nat) :
    bill probe check other front ≤ probe + check + 9 * other := by
  have awaited : ∀ {task : Task α}, task.Awaits past id command →
      task.bill probe check other ≤ probe + check + 4 * other := by
    intro task awaits
    cases awaits <;> simp only [Task.bill] <;> omega
  cases body with
  | @beginning task awaits | @noting task awaits | @waiting task awaits =>
      have most := awaited awaits
      simp only [bill_cons, bill_nil]
      generalize task.bill probe check other = own at most
      simp only [Task.bill]
      omega
  | writing =>
      simp only [bill_cons, bill_pollTasks, Task.bill]
      omega
  | _ =>
      simp only [bill_cons, bill_nil, Task.bill]
      omega

/-- A request that has reached a step is kept by its steps until the wait is over. -/
theorem Body.released_of_spawns (body : Body past id command cut phase (task :: rest))
    (spawns : task.Spawns board worker reply after more) (exists_ : id < board.monitors.size)
    (released : phase.Released (board.monitor id)) :
    (task.phaseAfter phase).Released (after.monitor id) := by
  rcases body.slot_of_spawns spawns with ⟨rfl, rfl, rfl⟩ | through | ⟨same, kept⟩
  · obtain ⟨-, held⟩ := released
    rw [Board.monitor_update_self exists_]
    refine Monitor.isCutShort_iff.mpr ⟨_, rfl, ?_⟩
    simp [Monitor.installLatch, held]
  · rw [through]
    trivial
  · simp only [Monitor.slot, Prod.mk.injEq] at kept
    obtain ⟨installed, latches, pending⟩ := kept
    rw [same]
    cases phase with
    | ahead => exact ⟨installed.trans released.1, pending.trans released.2⟩
    | waiting =>
        obtain ⟨latch, own, cut⟩ := Monitor.isCutShort_iff.mp released
        exact Monitor.isCutShort_iff.mpr ⟨latch, installed.trans own, latches ▸ cut⟩
    | past => trivial

end Steps

end Worker

/-! ## Steps that are let go -/

/-- Why a step may fail at a deed: an abort is requested, a call comes back with an error, or the
limit of time has passed when it is looked at. -/
inductive Deed.Breaks (board : Board) (deed : Deed α) : Prop where
  | aborted (requested : board.control.aborted = true)
  | called (info : ErrorInfo) (broken : deed.callError? = some info)
  | expired (poll : Poll α) (since : Instant) (limit : Duration) (now : Instant)
      (checks : deed = ⟨.checkLimit poll since limit, some (.told now)⟩)
      (passed : limit.nanoseconds ≤ now - since)

/-- Whether there was, in some turns, a deed of a run at which its step may fail. -/
def HasBroken (turns : List (Turn α)) (run : Nat) : Prop :=
  ∃ turn ∈ turns, ∃ deed, turn.deed? run = some deed ∧ deed.Breaks turn.scene.board

theorem HasBroken.mono {turns : List (Turn α)} {run : Nat} (broken : HasBroken turns run)
    (more : List (Turn α)) : HasBroken (turns ++ more) run := by
  obtain ⟨turn, member, breaks⟩ := broken
  exact ⟨turn, List.mem_append_left _ member, breaks⟩

namespace Worker

/-- How a worker stands before the end of a step that a request to skip has reached: nothing has
gone wrong, and the wait ahead or in progress will be cut short; or it only takes the wait back. -/
inductive LetsGo [Scalar α] (past : List (Deed α)) (id : Nat) (command : Command α) (board : Board)
    (worker : Worker α) (front : List (Task α)) : Prop where
  | sound {phase : WaitPhase} (sound : worker.failure = none)
      (body : Body past id command True phase front) (released : phase.Released (board.monitor id))
  | broken (failed : worker.failure.isSome = true)
      (tidies : ∀ task ∈ front,
        task.cleansUp = true ∧ task.isErrand = true ∧ task.IsOf (id, command))

section Steps

variable [Scalar α] {past : List (Deed α)} {id : Nat} {command : Command α} {board after : Board}
variable {worker next : Worker α} {task : Task α} {front rest behind more : List (Task α)}
variable {reply : Option (Reply α)} {error : ScanError}

theorem LetsGo.of_released (letsGo : LetsGo past id command board worker front)
    (kept : ∀ phase, WaitPhase.Released (board.monitor id) phase →
      WaitPhase.Released (after.monitor id) phase) :
    LetsGo past id command after worker front := by
  cases letsGo with
  | sound sound body released => exact .sound sound body (kept _ released)
  | broken failed tidies => exact .broken failed tidies

theorem LetsGo.isErrand (letsGo : LetsGo past id command board worker front) :
    ∀ task ∈ front, task.isErrand = true ∧ task.IsOf (id, command) := by
  cases letsGo with
  | sound _ body => exact fun task member => ⟨body.isErrand task member, body.isOf task member⟩
  | broken _ tidies => exact fun task member => (tidies task member).2

omit [Scalar α] in
/-- An errand fails for one of these reasons. -/
theorem breaks_of_fails (errand : task.isErrand = true) (fails : task.Fails board reply error) :
    Deed.Breaks board ⟨task, reply⟩ := by
  cases fails with
  | safePoint aborted | heedAbort _ _ aborted => exact .aborted aborted
  | refused => cases errand
  | evaluated | baseline | write | probe => exact .called _ rfl
  | timeout poll since limit now expired => exact .expired poll since limit now rfl expired

/-- A step that waits rests only while its wait is in progress. -/
theorem Body.eq_of_rests {own : Nat} (body : Body past id command cut phase (task :: rest))
    (rests : task.rests? = some own) : own = id ∧ phase = .waiting := by
  generalize shape : task :: rest = tasks at body
  cases body with
  | waiting awaits =>
      obtain ⟨rfl, -⟩ := List.cons.inj shape
      refine ⟨?_, rfl⟩
      cases awaits with
      | restPoll mine => exact (Option.some.inj rests).symm.trans mine.id_eq
      | restUntil => exact (Option.some.inj rests).symm
      | _ => cases rests
  | through => cases shape
  | _ =>
      obtain ⟨rfl, -⟩ := List.cons.inj shape
      cases rests

omit [Scalar α] in
/-- Dropping tasks makes nothing dearer. -/
theorem bill_unwind_le (probe check other : Nat) (tasks : List (Task α)) :
    bill probe check other (unwind tasks) ≤ bill probe check other tasks := by
  induction tasks with
  | nil => exact Nat.le_refl _
  | cons task rest ih =>
      cases cleans : task.cleansUp with
      | true => exact Nat.le_of_eq (by rw [unwind_cons_of_cleansUp cleans])
      | false =>
          rw [unwind_cons_of_not_cleansUp cleans, bill_cons]
          exact Nat.le_trans ih (Nat.le_add_left _ _)

/-- The next step of a worker that lets a step go. -/
theorem Outcome.letsGo
    (outcome : Outcome board worker task (rest ++ .settle id command :: behind) reply after next)
    (letsGo : LetsGo past id command board worker (task :: rest))
    (exists_ : id < board.monitors.size) :
    ∃ front, next.agenda = front ++ .settle id command :: behind ∧
      LetsGo (past ++ [⟨task, reply⟩]) id command after next front ∧
      (∀ probe check other, task.price probe check other + bill probe check other front ≤
        bill probe check other (task :: rest)) ∧
      (next.failure = worker.failure ∨ Deed.Breaks board ⟨task, reply⟩) := by
  obtain ⟨errand, -⟩ := letsGo.isErrand task List.mem_cons_self
  cases outcome with
  | @sound _ more was spawns =>
      cases letsGo with
      | broken failed => simp [was] at failed
      | sound _ body released =>
          have goesOn := body.of_spawns spawns fun _ => trivial
          have reaches := body.released_of_spawns spawns exists_ released
          refine ⟨more ++ rest, by simp, .sound (by simpa using was) goesOn reaches,
            fun probe check other => ?_, .inl (by simp)⟩
          have short : ∀ own, task.rests? = some own → (board.monitor own).isCutShort = true := by
            intro own rests
            obtain ⟨rfl, rfl⟩ := body.eq_of_rests rests
            exact released
          rw [bill_append, bill_cons, ← Nat.add_assoc]
          exact Nat.add_le_add_right (Task.bill_of_spawns errand spawns short) _
  | broken was fails =>
      have skipped := not_cleansUp_of_fails fails
      refine ⟨Worker.unwind rest, unwind_append_cons rfl rest behind, .broken rfl ?_, ?_,
        .inr (breaks_of_fails errand fails)⟩
      · cases letsGo with
        | broken failed => simp [was] at failed
        | sound _ body =>
            have tidies := body.cleansUp_of_mem_unwind
            rw [unwind_cons_of_not_cleansUp skipped] at tidies
            intro due member
            have inner := List.mem_cons_of_mem task ((unwind_suffix rest).mem member)
            exact ⟨tidies due member, body.isErrand due inner, body.isOf due inner⟩
      · intro probe check other
        rw [bill_cons]
        exact Nat.add_le_add task.price_le_bill (bill_unwind_le ..)
  | @cleaning _ more failed cleans spawns =>
      cases letsGo with
      | sound was => simp [was] at failed
      | broken _ tidies =>
          have nothing : more = [] := by
            cases spawns <;> first
              | exact absurd cleans Bool.false_ne_true
              | exact absurd errand Bool.false_ne_true
              | rfl
          subst nothing
          refine ⟨Worker.unwind rest, unwind_append_cons rfl rest behind,
            .broken (by simpa using failed) fun due member => ?_, fun probe check other => ?_,
            .inl (by simp)⟩
          · exact tidies due (List.mem_cons_of_mem task ((unwind_suffix rest).mem member))
          · rw [bill_cons]
            exact Nat.add_le_add task.price_le_bill (bill_unwind_le ..)

end Steps

end Worker

/-! ## The way to the end -/

/-- Nothing that others do takes a request back that has reached a step. -/
theorem Board.Amid.released {company : Call → Prop} {board after : Board}
    (amid : board.Amid company after) {id : Nat} (phase : WaitPhase)
    (released : phase.Released (board.monitor id)) : phase.Released (after.monitor id) := by
  cases amid with
  | aside bystander => exact bystander.monitor id ▸ released
  | @access call totalWork now =>
      cases call with
      | skipRecord other =>
          rw [Call.step, Board.monitor_update]
          split
          · exact released.recordSkip
          · exact released
      | _ => first
        | exact released
        | simp only [Call.step]
          split <;> exact released

/-- The step that a request to skip is passed on to. -/
def Call.passedOn? : Call → Option Nat
  | .skipRecord id => some id
  | _ => none

theorem Call.eq_of_passedOn? {call : Call} {id : Nat} (passes : call.passedOn? = some id) :
    call = .skipRecord id := by
  cases call <;> cases passes
  rfl

/-- The step that comes to its end with a task. -/
def Task.ends? : Task α → Option (Frame α)
  | .settle id command => some (id, command)
  | _ => none

theorem Task.eq_of_ends? {task : Task α} {frame : Frame α} (ends : task.ends? = some frame) :
    task = .settle frame.1 frame.2 := by
  cases task <;> cases ends
  rfl

namespace Scene

variable [Scalar α] {sequencer : Sequencer α} {past future : List (Turn α)}
variable {scene next last : Scene α} {act : Act α} {run id : Nat} {worker current : Worker α}
variable {command : Command α} {front inner behind : List (Task α)}

/-- What a run comes to from a moment at which a step is let go, until the step is settled. -/
structure LetsGo (run id : Nat) (command : Command α) (front behind : List (Task α))
    (past future : List (Turn α)) (last : Scene α) (current : Worker α) (inner : List (Task α)) :
    Prop where
  found : last.workers[run]? = some current
  agenda : current.agenda = inner ++ .settle id command :: behind
  letsGo : Worker.LetsGo (deedsOf run (past ++ future)) id command last.board current inner
  own : ∀ deed ∈ deedsOf run future, deed.task.IsOf (id, command)
  price : ∀ probe check other, spent probe check other (deedsOf run future) +
    Worker.bill probe check other inner ≤ Worker.bill probe check other front
  cause : current.failure = none ∨ HasBroken future run

/-- Whatever is done by others, a step that is let go is still so after that. -/
theorem LetsGo.wait (letsGo : LetsGo run id command front behind past future scene current inner)
    (found : next.workers[run]? = some current)
    (kept : ∀ phase : WaitPhase, phase.Released (scene.board.monitor id) →
      phase.Released (next.board.monitor id))
    (silent : (⟨scene, act⟩ : Turn α).deed? run = none) :
    LetsGo run id command front behind past (future ++ [⟨scene, act⟩]) next current inner where
  found := found
  agenda := letsGo.agenda
  letsGo := by
    rw [← List.append_assoc, deedsOf_concat silent]
    exact letsGo.letsGo.of_released kept
  own := by
    rw [deedsOf_concat silent]
    exact letsGo.own
  price := by
    rw [deedsOf_concat silent]
    exact letsGo.price
  cause := letsGo.cause.imp_right fun broken => broken.mono _

/-- The next move of a run that lets a step go, unless it settles the step. -/
theorem LetsGo.work {reply : Option (Reply α)}
    (plays : sequencer.scene.Plays (past ++ future) scene)
    (letsGo : LetsGo run id command front behind past future scene current inner)
    (exists_ : id < scene.board.monitors.size) (acted : scene.act? (.work run reply) = some next)
    (unsettled : (⟨scene, .work run reply⟩ : Turn α).deed? run ≠ some ⟨.settle id command, reply⟩) :
    ∃ current inner, LetsGo run id command front behind past (future ++ [⟨scene, .work run reply⟩])
      next current inner := by
  have found := letsGo.found
  have agenda := letsGo.agenda
  obtain ⟨mover, board, after, moved, stepped, rfl⟩ := exists_of_work acted
  cases found.symm.trans moved
  obtain ⟨_, _, _, followed, -⟩ := plays.sound.follows found
  cases inner with
  | nil =>
      refine absurd ?_ unsettled
      simp [Turn.deed?, found, agenda]
  | cons task rest =>
      obtain ⟨remaining, goesOn, lets, price, cause⟩ :=
        (Worker.outcome_of_step? followed.isSteady agenda stepped).letsGo letsGo.letsGo exists_
      obtain ⟨-, own⟩ := letsGo.letsGo.isErrand task List.mem_cons_self
      refine ⟨after, remaining, ?_, goesOn, ?_, ?_, fun probe check other => ?_, ?_⟩
      · exact List.getElem?_set_self (List.getElem?_eq_some_iff.mp found).1
      · rw [← List.append_assoc, deedsOf_work found agenda]
        exact lets
      · rw [deedsOf_work found agenda]
        exact List.forall_mem_append.mpr ⟨letsGo.own, List.forall_mem_singleton.mpr own⟩
      · have before := letsGo.price probe check other
        have step := price probe check other
        simp only [deedsOf_work found agenda, spent_append, spent_singleton]
        omega
      · rcases cause with same | breaks
        · rw [same]
          exact letsGo.cause.imp_right fun broken => broken.mono _
        · exact .inr ⟨_, List.mem_append_right _ List.mem_cons_self, _,
            by simp [Turn.deed?, found, agenda], breaks⟩

/-- The next turn of a play in which a run lets a step go, unless the step is settled there. -/
theorem LetsGo.turn (plays : sequencer.scene.Plays (past ++ future) scene)
    (fresh : sequencer.board = {})
    (letsGo : LetsGo run id command front behind past future scene current inner)
    (acted : scene.act? act = some next)
    (unsettled : ∀ reply, (⟨scene, act⟩ : Turn α).deed? run ≠ some ⟨.settle id command, reply⟩) :
    ∃ current inner,
      LetsGo run id command front behind past (future ++ [⟨scene, act⟩]) next current inner := by
  obtain ⟨running, isCurrent⟩ := plays.isCurrent_of_settle fresh letsGo.found
    (letsGo.agenda ▸ List.mem_append_right _ List.mem_cons_self)
  rcases amid_of_act? acted with ⟨runId, rfl, free, -⟩ | ⟨other, reply, rfl⟩ |
    ⟨workers, -, amid, silent⟩
  · -- no run begins while this one is in progress
    simp only [Sequencer.isTaken, Bool.or_eq_false_iff] at free
    exact absurd (isCurrent.2.symm.trans free.1) Bool.noConfusion
  · by_cases same : other = run
    · subst same
      exact letsGo.work plays (Board.lt_size_of_running running) acted (unsettled reply)
    · -- a run before this one only publishes its end
      obtain ⟨mover, board, after, moved, stepped, rfl⟩ := exists_of_work acted
      obtain ⟨_, _, _, followed, -⟩ := plays.sound.follows moved
      obtain ⟨event, _, _, rfl, rfl, -⟩ := followed.step_of_over (fun isOpen =>
        same (Nat.succ.inj ((followed.current.mpr isOpen).1.trans isCurrent.1.symm))) stepped
      refine ⟨current, inner, letsGo.wait ?_ (fun _ released => released) ?_⟩
      · rw [List.getElem?_set_ne same]
        exact letsGo.found
      · simp [Turn.deed?, same]
  · exact ⟨current, inner, letsGo.wait (workers ▸ letsGo.found)
      (fun phase => amid.released phase) (silent run)⟩

/-- A step that is let go is so until it is settled. -/
theorem Plays.letsGo (plays : sequencer.scene.Plays past scene) (fresh : sequencer.board = {})
    (begins : LetsGo run id command front behind past [] scene worker front)
    (later : scene.Plays future last)
    (unsettled : ∀ deed ∈ deedsOf run future, deed.task ≠ .settle id command) :
    ∃ current inner, LetsGo run id command front behind past future last current inner := by
  induction later with
  | begin => exact ⟨worker, front, begins⟩
  | @turn future now next act more acted ih =>
      rw [deedsOf_append] at unsettled
      obtain ⟨current, inner, letsGo⟩ :=
        ih fun deed member => unsettled deed (List.mem_append_left _ member)
      refine letsGo.turn (plays.append more) fresh acted fun reply made => ?_
      have member : ⟨.settle id command, reply⟩ ∈ deedsOf run [(⟨now, act⟩ : Turn α)] :=
        List.mem_filterMap.mpr ⟨_, List.mem_singleton_self _, made⟩
      exact unsettled _ (List.mem_append_right _ member) rfl

/-- A request to skip that is passed on reaches its step, if nothing has gone wrong with it. -/
theorem Plays.letsGo_of_record (plays : sequencer.scene.Plays past scene)
    (fresh : sequencer.board = {})
    (records : (⟨scene, act⟩ : Turn α).call? = some (.skipRecord id))
    (acted : scene.act? act = some next) (waits : command.isSkippable = true)
    (found : scene.workers[run]? = some worker) (sound : worker.failure = none)
    (agenda : worker.agenda = front ++ .settle id command :: behind) :
    LetsGo run id command front behind (past ++ [⟨scene, act⟩]) [] next worker front ∧
      ∀ probe check other, Worker.bill probe check other front ≤ probe + check + 9 * other := by
  obtain ⟨running, current⟩ :=
    plays.isCurrent_of_settle fresh found (agenda ▸ List.mem_append_right _ List.mem_cons_self)
  obtain ⟨phase, body, fits⟩ :=
    plays.isAttended fresh found current.1 sound front id command behind agenda waits
  obtain ⟨now, made, workers⟩ := exists_of_call? acted records
  have recorded : next.board = scene.board.update id Monitor.recordSkip :=
    congrArg Sequencer.board made
  refine ⟨⟨workers ▸ found, agenda, .sound sound (body.mono ?_ fun _ => trivial) ?_,
    List.forall_mem_nil _, fun probe check other => ?_, .inl sound⟩, body.bill_le⟩
  · simp only [List.append_nil, deedsOf_append]
    exact List.subset_append_left _ _
  · rw [recorded, Board.monitor_update_self (Board.lt_size_of_running running)]
    exact fits.released
  · exact Nat.le_of_eq (Nat.zero_add _)

/-- What is left of a wait when an accepted request to skip it is passed on.

Up to the end of its step the run does only what belongs to the step: it looks at most once more at
the channel, and at most once more at the limit of time, and makes at most nine more moves. It goes
on whenever it is not held by a pause. The step is then completed, unless an abort was requested at
one of these moves, a call came back from one of them with an error, or the limit of time had passed
at the one look at it. -/
theorem accepted_skip_leaves_one_look {sequence : Sequence} {pollInterval : Duration}
    (accepted : Sequencer.ofSequence sequence pollInterval = .ok sequencer)
    (plays : sequencer.scene.Plays past scene)
    (records : (⟨scene, act⟩ : Turn α).call? = some (.skipRecord id))
    (acted : scene.act? act = some next)
    (found : scene.workers[run]? = some worker) (sound : worker.failure = none)
    (ahead : .settle id command ∈ worker.agenda) (later : next.Plays future last)
    (unsettled : ∀ deed ∈ deedsOf run future, deed.task ≠ .settle id command) :
    HasSkipped (past ++ [⟨scene, act⟩]) run (id, command) ∧
      (∀ deed ∈ deedsOf run future, deed.task.IsOf (id, command)) ∧
      (∀ probe check other,
        spent probe check other (deedsOf run future) ≤ probe + check + 9 * other) ∧
      ∃ current, last.workers[run]? = some current ∧ .settle id command ∈ current.agenda ∧
        (current.next last.board ≠ .held →
          ∃ reply, (last.act? (.work run reply)).isSome = true) ∧
        ∀ rest reply after, current.agenda = .settle id command :: rest →
          last.act? (.work run reply) = some after →
            (after.board.monitor id).status = .completed ∨ HasBroken future run := by
  have fresh := Sequencer.board_eq_of_ofSequence accepted
  have turned : sequencer.scene.Plays (past ++ [⟨scene, act⟩]) next := .turn plays acted
  have skipped : HasSkipped (past ++ [⟨scene, act⟩]) run (id, command) := by
    obtain ⟨_, _, skipped⟩ := plays.hasSkipped_of_record fresh records
    obtain ⟨_, -, workers⟩ := exists_of_call? acted records
    exact turned.hasSkipped_unique
      (turned.mem_framesOf_of_settle fresh (workers ▸ found) ahead) skipped
  have waits : command.isSkippable = true := by
    obtain ⟨_, ⟨_, _, accepts, _⟩⟩ := skipped
    exact accepts.waits
  obtain ⟨front, behind, agenda⟩ := List.append_of_mem ahead
  obtain ⟨start, limited⟩ :=
    plays.letsGo_of_record fresh records acted waits found sound agenda
  obtain ⟨current, inner, letsGo⟩ := turned.letsGo fresh start later unsettled
  have whole := turned.append later
  have owed : .settle id command ∈ current.agenda := by simp [letsGo.agenda]
  refine ⟨skipped, letsGo.own, fun probe check other => ?_, current, letsGo.found, owed,
    fun free => ?_, fun rest reply after agenda acted => ?_⟩
  · have paid := letsGo.price probe check other
    have most := limited probe check other
    omega
  · obtain ⟨_, _, _, followed, -⟩ := whole.sound.follows letsGo.found
    exact followed.exists_act? free (List.ne_nil_of_mem owed)
  · rw [whole.status_of_settle fresh letsGo.found agenda acted]
    exact letsGo.cause.imp_left fun smooth => by rw [smooth]; rfl

/-- A channel is set with a limit of time for the wait. It is asked to skip the wait and does so,
after one more look at the channel and one at the limit. -/
theorem skip_ends_limited_wait :
    ∃ (sequencer : Sequencer Rat) (past future : List (Turn Rat))
      (scene next last after : Scene Rat) (command : Command Rat),
        sequencer.scene.Plays past scene ∧
        scene.act? (.access 0 0) = some next ∧
        HasSkipped (past ++ [⟨scene, .access 0 0⟩]) 0 (0, command) ∧ next.Plays future last ∧
        spent 1 0 0 (deedsOf 0 future) = 1 ∧ spent 0 1 0 (deedsOf 0 future) = 1 ∧
        spent 1 1 1 (deedsOf 0 future) ≤ 11 ∧ last.act? (.work 0 none) = some after ∧
        (after.board.monitor 0).status = .completed := by
  have rehearsed : Scene.rehearseAround (α := Rat)
      ⟨none, [(Descriptor.set "a" 1).withParam "timeout" (.number (.float 5))]⟩ ⟨2000000⟩
      (.execute "run" :: Scene.workActs 2
          [(.told 0, 7), (.wrote (.ok ()), 1), (.told 1000, 0), (.told 2000, 1),
            (.found (.ok 0), 0), (.told 3000, 0), (.rested, 0)] ++
        .invoke .skip :: List.replicate 3 (.access 0 0))
      (.access 0 0)
      (Scene.workActs 1 [(.found (.ok 0), 0), (.told 4000, 0), (.rested, 2)])
      (fun scene next future last =>
        (scene.calls[0]?.any fun call => decide (call.passedOn? = some 0)) &&
        (scene.workers[0]?.any fun worker => worker.failure.isNone &&
          worker.agenda.any fun task => task.ends?.any fun frame => decide (frame.1 = 0)) &&
        ((deedsOf 0 future).all fun deed => deed.task.ends?.isNone) &&
        decide (spent 1 0 0 (deedsOf 0 future) = 1) &&
        decide (spent 0 1 0 (deedsOf 0 future) = 1) &&
        (last.act? (.work 0 none)).any fun after =>
          decide ((after.board.monitor 0).status = .completed)) = true := by
    with_unfolding_all decide
  obtain ⟨sequencer, past, scene, next, future, last, accepted, plays, acted, later, test⟩ :=
    Scene.exists_of_rehearseAround rehearsed
  simp only [Bool.and_eq_true, Option.any_eq_true, List.any_eq_true, List.all_eq_true,
    decide_eq_true_eq, Option.isNone_iff_eq_none] at test
  obtain ⟨⟨⟨⟨⟨⟨call, calls, passes⟩, worker, found, sound, task, ahead, ⟨_, command⟩, ends, rfl⟩,
    unsettled⟩, oneProbe⟩, oneCheck⟩, after, settled, completed⟩ := test
  obtain rfl := Call.eq_of_passedOn? passes
  obtain rfl := Task.eq_of_ends? ends
  have records : (⟨scene, .access 0 0⟩ : Turn Rat).call? = some (.skipRecord 0) := calls
  have waits : ∀ deed ∈ deedsOf 0 future, deed.task ≠ .settle 0 command := by
    intro deed member settles
    have nothing := unsettled deed member
    rw [settles] at nothing
    cases nothing
  obtain ⟨skipped, -, price, -⟩ :=
    accepted_skip_leaves_one_look accepted plays records acted found sound ahead later waits
  exact ⟨sequencer, past, future, scene, next, last, after, command, plays, acted, skipped, later,
    oneProbe, oneCheck, price 1 1 1, settled, completed⟩

/-- A channel is set with a limit of time for the wait. It is asked to skip the wait, which is
accepted during the first look at the channel. The limit has passed by the end of this look, and so
the step fails for its time, although no abort was requested and no call failed. -/
theorem skipped_step_fails_for_time :
    ∃ (sequencer : Sequencer Rat) (past future : List (Turn Rat)) (scene last : Scene Rat)
      (command : Command Rat) (before after : Worker Rat), sequencer.scene.Plays past scene ∧
        HasSkipped past 0 (0, command) ∧ scene.workers[0]? = some before ∧ before.failure = none ∧
        scene.Plays future last ∧
        (∀ turn ∈ past ++ future, turn.scene.board.control.aborted = false) ∧
        (∀ deed ∈ deedsOf 0 (past ++ future), deed.callError? = none) ∧
        last.workers[0]? = some after ∧
        (after.failure.map fun error => error.info.code) = some .timeout ∧
        (last.board.monitor 0).status = .failed := by
  have rehearsed : Scene.rehearse (α := Rat)
      ⟨none, [(Descriptor.set "a" 1).withParam "timeout" (.number (.float 5))]⟩ ⟨2000000⟩
      (.execute "run" :: Scene.workActs 2
          [(.told 0, 7), (.wrote (.ok ()), 1), (.told 1000, 0), (.told 2000, 1)] ++
        .invoke .skip :: List.replicate 4 (.access 0 0))
      (fun past scene =>
        (scene.workers[0]?.any fun worker => worker.failure.isNone) &&
        ((framesOf (deedsOf 0 past)).any fun frame => decide (frame.1 = 0)) &&
        (scene.board.monitor 0).isCutShort &&
        (scene.play (Scene.workActs 0 [(.found (.ok 0), 0), (.told 6000000000, 3)])).any
          fun played =>
            ((past ++ played.1).all fun turn => !turn.scene.board.control.aborted) &&
            ((deedsOf 0 (past ++ played.1)).all fun deed => deed.callError?.isNone) &&
            (played.2.workers[0]?.any fun worker =>
              decide ((worker.failure.map fun error => error.info.code) = some .timeout)) &&
            decide ((played.2.board.monitor 0).status = .failed)) = true := by
    with_unfolding_all decide
  obtain ⟨sequencer, past, scene, accepted, plays, test⟩ := Scene.exists_of_rehearse rehearsed
  simp only [Bool.and_eq_true, Option.any_eq_true, List.any_eq_true, List.all_eq_true,
    decide_eq_true_eq, Option.isNone_iff_eq_none, Bool.not_eq_true'] at test
  obtain ⟨⟨⟨⟨before, found, sound⟩, ⟨_, command⟩, member, rfl⟩, short⟩, ⟨future, last⟩, played,
    ⟨⟨unaborted, smooth⟩, after, found', code⟩, status⟩ := test
  have fresh := Sequencer.board_eq_of_ofSequence accepted
  exact ⟨sequencer, past, future, scene, last, command, before, after, plays,
    plays.hasSkipped_of_isCutShort fresh member short, found, sound, Scene.plays_of_play played,
    unaborted, smooth, found', code, status⟩

end Scene

end Scan
