import Mathlib.Logic.Function.Iterate
import Scan.Proofs.Bare
import Scan.Proofs.Standstill

/-!
# The course of a run

Where a run stands, apart from numbers and times, is decided by the collaborators that it calls as
long as their answers depend only on the calls that were made before. Among calls that neither abort
nor skip the run goes on from there step by step, except that it may wait for the end of a delay.
-/

namespace Scan

variable {α : Type}

/-! ## Collaborators -/

/-- Whether a call is made to the evaluator or to a channel. -/
def Query.isOutward : Query α → Bool
  | .evaluate _ | .read _ | .write .. => true
  | .clock | .rest .. => false

/-- The call that a task makes to the evaluator or to a channel, if it makes one. -/
def Task.asks? (task : Task α) : Option (Query α) :=
  (task.query? ⟨0⟩).filter Query.isOutward

/-- The calls that are made to the evaluator and to channels. -/
def callsIn (past : List (Deed α)) : List (Query α) :=
  past.filterMap (·.task.asks?)

@[simp] theorem callsIn_append (first second : List (Deed α)) :
    callsIn (first ++ second) = callsIn first ++ callsIn second :=
  List.filterMap_append

theorem callsIn_singleton (deed : Deed α) : callsIn [deed] = deed.task.asks?.toList := by
  cases asks : deed.task.asks? <;> simp [callsIn, asks]

/-- An evaluator and channels whose answers depend only on the calls that were made before. -/
structure Collaborators (α : Type) where
  evaluate : (before : List (Query α)) → String → Except EvalError α
  read : (before : List (Query α)) → String → Except IoError α
  write : (before : List (Query α)) → String → α → Except IoError Unit

namespace Collaborators

/-- The answer to a query, with a clock that stands still. -/
def answer (collaborators : Collaborators α) (before : List (Query α)) :
    (query : Query α) → query.Answer
  | .evaluate text => collaborators.evaluate before text
  | .read channel => collaborators.read before channel
  | .write channel value => collaborators.write before channel value
  | .clock => (0 : Nat)
  | .rest .. => ()

/-- The reply to a task, if it makes a call. -/
def reply (collaborators : Collaborators α) (before : List (Query α)) (task : Task α) :
    Option (Reply α) :=
  (task.query? ⟨0⟩).map fun query => query.reply (collaborators.answer before query)

/-- Whether all calls to the evaluator and to channels are answered by the collaborators. -/
def Answers (collaborators : Collaborators α) (before : List (Query α)) : List (Deed α) → Prop
  | [] => True
  | deed :: rest =>
      (deed.task.asks?.isSome = true → deed.reply = collaborators.reply before deed.task) ∧
        Answers collaborators (before ++ deed.task.asks?.toList) rest

theorem answers_append {collaborators : Collaborators α} {before : List (Query α)}
    {first second : List (Deed α)} :
    collaborators.Answers before (first ++ second) ↔
      collaborators.Answers before first ∧
        collaborators.Answers (before ++ callsIn first) second := by
  induction first generalizing before with
  | nil => simp [Answers, callsIn]
  | cons deed rest ih =>
      have calls : callsIn (deed :: rest) = deed.task.asks?.toList ++ callsIn rest := by
        rw [← callsIn_singleton, ← callsIn_append, List.singleton_append]
      rw [List.cons_append, Answers, Answers, ih, calls, ← List.append_assoc, and_assoc]

end Collaborators

@[simp] theorem Task.asks?_bare (first : Nat) (task : Task α) :
    (task.bare first).asks? = task.asks? := by
  cases task with
  | resolve id quantity purpose => cases quantity <;> rfl
  | _ => rfl

/-- A task that moves the run makes the same call apart from numbers and times. -/
theorem Collaborators.reply_bare (collaborators : Collaborators α) (before : List (Query α))
    {first : Nat} {task : Task α} {reply : Option (Reply α)}
    (moves : Deed.isIdle ⟨task, reply⟩ = false) :
    collaborators.reply before (task.bare first) = collaborators.reply before task := by
  cases task with
  | resolve id quantity purpose => cases quantity <;> rfl
  | heedAbort | restUntil => exact absurd moves.symm Bool.false_ne_true
  | _ => rfl

/-- Whether a reply is one to the call of a task; there is none if it makes no call. -/
def Task.fits (reply : Option (Reply α)) (task : Task α) : Bool :=
  match task.query? ⟨0⟩, reply with
  | none, none => true
  | some (.evaluate _), some (.evaluated _) => true
  | some (.read _), some (.found _) => true
  | some (.write ..), some (.wrote _) => true
  | some .clock, some (.told _) => true
  | some (.rest ..), some .rested => true
  | _, _ => false

section Replies

variable [Scalar α] {board after : Board} {worker next : Worker α} {task : Task α}
variable {rest more : List (Task α)} {reply : Option (Reply α)} {error : ScanError}
variable {collaborators : Collaborators α} {before : List (Query α)}

theorem Task.bare_reply_of_spawns (spawns : task.Spawns board worker reply after more)
    (answered : task.asks?.isSome = true → reply = collaborators.reply before task) :
    reply.map Reply.bare = collaborators.reply before task := by
  cases spawns with
  | evaluated | baseline | write | satisfied | limited | unlimited =>
      rw [← answered rfl]
      rfl
  | _ => rfl

omit [Scalar α] in
theorem Task.bare_reply_of_fails (fails : task.Fails board reply error)
    (answered : task.asks?.isSome = true → reply = collaborators.reply before task) :
    reply.map Reply.bare = collaborators.reply before task := by
  cases fails with
  | evaluated | baseline | write | probe =>
      rw [← answered rfl]
      rfl
  | _ => rfl

/-- The replies to a run are those of its collaborators, apart from the time. -/
theorem Worker.bare_reply_of_step? (agenda : worker.agenda = task :: rest)
    (stepped : worker.step? board reply = some (after, next))
    (answered : task.asks?.isSome = true → reply = collaborators.reply before task) :
    reply.map Reply.bare = collaborators.reply before task := by
  obtain ⟨_, _, same, result⟩ := step?_cases stepped
  obtain ⟨rfl, rfl⟩ := List.cons.inj (agenda.symm.trans same)
  rcases result with ⟨more, spawns, -⟩ | ⟨error, fails, -⟩
  · exact Task.bare_reply_of_spawns spawns answered
  · exact Task.bare_reply_of_fails fails answered

/-- A worker that is not held can make a step exactly if the reply fits its task. -/
theorem Worker.isSome_step? (agenda : worker.agenda = task :: rest)
    (free : worker.next board ≠ .held) :
    (worker.step? board reply).isSome = task.fits reply := by
  unfold step?
  cases task
  case safePoint =>
    have passable : board.control.blocks = false :=
      Bool.eq_false_iff.mpr fun blocks => free (next_eq_held.mpr ⟨⟨rest, agenda⟩, blocks⟩)
    simp only [next, agenda, passable, Bool.false_eq_true, if_false]
    split <;> rcases reply with _ | _ | _ | _ | _ | _ <;> rfl
  case resolve id quantity purpose =>
    simp only [next, agenda]
    cases quantity <;> rcases reply with _ | _ | _ | _ | _ | _ <;> rfl
  all_goals
    simp only [next, agenda]
    (repeat' split) <;> rcases reply with _ | _ | _ | _ | _ | _ <;> rfl

/-- A worker that is not held takes the reply of its collaborators. -/
theorem Worker.isSome_step?_reply (agenda : worker.agenda = task :: rest)
    (free : worker.next board ≠ .held) :
    (worker.step? board (collaborators.reply before task)).isSome = true := by
  rw [Worker.isSome_step? agenda free]
  unfold Task.fits Collaborators.reply
  cases task.query? ⟨0⟩ with
  | none => rfl
  | some query => cases query <;> rfl

end Replies

/-! ## Where a run stands -/

/-- Where a run stands, with the calls that it has made. -/
structure Standing (α : Type) where
  board : Board
  worker : Worker α
  calls : List (Query α)

/-- Where a worker stands on a board, apart from times and with monitors counted from a number on. -/
def Worker.standing (first : Nat) (worker : Worker α) (board : Board) (calls : List (Query α)) :
    Standing α where
  board := board.bare first
  worker := worker.bare first
  calls := calls

/-- Where a run stands that has just begun. -/
def Sequencer.standing (sequencer : Sequencer α) : Standing α where
  board := { work := WorkCounter.reset sequencer.totalWork }
  worker := sequencer.worker ""
  calls := []

/-- How a run goes on with its collaborators from where it stands; it stays where it cannot go on. -/
def Standing.advance [Scalar α] (collaborators : Collaborators α) (standing : Standing α) :
    Standing α :=
  match standing.worker.agenda with
  | [] => standing
  | task :: _ =>
      let reply := collaborators.reply standing.calls task
      match standing.worker.step? standing.board reply with
      | some (board, worker) => worker.standing 0 board (standing.calls ++ task.asks?.toList)
      | none => standing

/-- How many deeds move a run, other than waiting for the end of a delay. -/
def movesIn (past : List (Deed α)) : Nat :=
  past.countP (!·.isIdle)

theorem movesIn_append_singleton (past : List (Deed α)) (deed : Deed α) :
    movesIn (past ++ [deed]) = movesIn past + (!deed.isIdle).toNat := by
  cases idle : deed.isIdle <;> simp [movesIn, List.countP_append, idle]

/-! ## Shelter from aborts and skips -/

/-- Whether an access of a call neither aborts a run nor cuts a wait short. -/
def Call.isPatient : Call → Bool
  | .abort | .skipRecord _ => false
  | _ => true

/-- What patient calls leave as it is. -/
theorem Board.Amid.kept {board after : Board}
    (amid : board.Amid (fun call => call.isPatient = true) after) :
    after.control.aborted = board.control.aborted ∧ after.monitors = board.monitors ∧
      after.work = board.work := by
  refine ⟨amid.aborted_eq ?_, ?_, amid.foreign.work⟩
  · rintro call patient rfl
    exact Bool.false_ne_true patient
  · cases amid with
    | aside bystander => exact bystander.monitors
    | @access call totalWork now patient =>
        cases call with
        | skipRecord => exact absurd patient Bool.false_ne_true
        | pause | resume | abort | skip | skipInnermost | skipTest | progressInnermost =>
            simp only [Call.step]
            split <;> rfl
        | _ => rfl

/-- A worker without limits of time that nobody has asked to abort or to skip anything, among the
monitors from a number on. -/
structure Worker.IsSheltered (first : Nat) (board : Board) (worker : Worker α) : Prop where
  free : board.control.aborted = false
  size : first ≤ board.monitors.size
  unskipped : board.UnskippedFrom first
  untimed : Worker.AreUntimedFrom first worker.agenda

namespace Worker.IsSheltered

variable {first : Nat} {board after : Board} {worker : Worker α}

/-- Patient calls leave a worker in its shelter. -/
theorem wait (sheltered : worker.IsSheltered first board)
    (amid : board.Amid (fun call => call.isPatient = true) after) :
    worker.IsSheltered first after := by
  obtain ⟨aborted, monitors, -⟩ := amid.kept
  refine ⟨aborted ▸ sheltered.free, monitors ▸ sheltered.size, fun id beyond => ?_,
    sheltered.untimed⟩
  rw [Board.monitor, monitors]
  exact sheltered.unskipped id beyond

theorem uncut (sheltered : worker.IsSheltered first board) (id : Nat) (beyond : first ≤ id) :
    (board.monitor id).isCutShort = false :=
  (sheltered.unskipped id beyond).isCutShort

end Worker.IsSheltered

/-- Patient calls leave a run where it stands. -/
theorem Worker.standing_of_amid {first : Nat} {board after : Board} {calls : List (Query α)}
    (worker : Worker α) (amid : board.Amid (fun call => call.isPatient = true) after) :
    worker.standing first after calls = worker.standing first board calls := by
  obtain ⟨-, monitors, work⟩ := amid.kept
  rw [standing, standing, Board.bare, Board.bare, monitors, work]

section Steps

variable [Scalar α] {board after : Board} {worker next : Worker α} {task : Task α}
variable {rest : List (Task α)} {reply : Option (Reply α)} {first : Nat}

/-- No step leads out of the shelter. -/
theorem Worker.Outcome.isSheltered (agenda : worker.agenda = task :: rest)
    (outcome : Outcome board worker task rest reply after next)
    (sheltered : worker.IsSheltered first board) : next.IsSheltered first after := by
  obtain ⟨free, size, unskipped, untimed⟩ := sheltered
  rw [agenda, areUntimedFrom_cons] at untimed
  cases outcome with
  | sound _ spawns =>
      exact ⟨Task.control_of_spawns spawns ▸ free,
        Nat.le_trans size (Task.size_le_of_spawns spawns), Task.unskippedFrom_of_spawns spawns unskipped,
        areUntimedFrom_append.mpr ⟨Task.areUntimedFrom_of_spawns untimed.1 size spawns, untimed.2⟩⟩
  | cleaning _ _ spawns =>
      refine ⟨Task.control_of_spawns spawns ▸ free,
        Nat.le_trans size (Task.size_le_of_spawns spawns), Task.unskippedFrom_of_spawns spawns unskipped,
        AreUntimedFrom.unwind (areUntimedFrom_append.mpr ⟨?_, untimed.2⟩)⟩
      exact Task.areUntimedFrom_of_spawns untimed.1 size spawns
  | broken => exact ⟨free, size, unskipped, untimed.2.unwind⟩

/-- Waiting for the end of a delay leaves a run where it stands. -/
theorem Worker.Outcome.standing_of_isIdle {calls : List (Query α)}
    (agenda : worker.agenda = task :: rest)
    (outcome : Outcome board worker task rest reply after next)
    (sheltered : worker.IsSheltered first board) (idle : Deed.isIdle ⟨task, reply⟩ = true) :
    next.standing first after calls = worker.standing first board calls := by
  have untimed : task.IsUntimedFrom first :=
    sheltered.untimed task (agenda ▸ List.mem_cons_self)
  obtain ⟨boards, workers⟩ :=
    outcome.bare_of_isIdle agenda untimed sheltered.uncut sheltered.free idle
  rw [standing, standing, boards, workers]

variable {collaborators : Collaborators α}

theorem Standing.advance_of_step? {standing : Standing α}
    (agenda : standing.worker.agenda = task :: rest)
    (stepped : standing.worker.step? standing.board (collaborators.reply standing.calls task) =
      some (after, next)) :
    standing.advance collaborators =
      next.standing 0 after (standing.calls ++ task.asks?.toList) := by
  simp [advance, agenda, stepped]

/-- Every other step leads a run on from where it stands. -/
theorem Worker.standing_of_step? {calls : List (Query α)} (agenda : worker.agenda = task :: rest)
    (stepped : worker.step? board reply = some (after, next))
    (sheltered : worker.IsSheltered first board)
    (answered : task.asks?.isSome = true → reply = collaborators.reply calls task)
    (moves : Deed.isIdle ⟨task, reply⟩ = false) :
    next.standing first after (calls ++ task.asks?.toList) =
      (worker.standing first board calls).advance collaborators := by
  have untimed : task.IsUntimedFrom first :=
    sheltered.untimed task (agenda ▸ List.mem_cons_self)
  have head : (worker.bare first).agenda = task.bare first :: rest.map (Task.bare first) :=
    congrArg (List.map (Task.bare first)) agenda
  obtain ⟨plainAfter, plainNext, plain, boards, workers⟩ :=
    exists_bare_step? agenda stepped untimed sheltered.size sheltered.uncut sheltered.free moves
  rw [bare_reply_of_step? agenda stepped answered, ← collaborators.reply_bare calls moves] at plain
  have goesOn : (worker.standing first board calls).advance collaborators =
      plainNext.standing 0 plainAfter (calls ++ (task.bare first).asks?.toList) :=
    Standing.advance_of_step? head plain
  rw [goesOn, Task.asks?_bare, standing, standing, boards, workers]

end Steps

/-! ## The course of a life -/

section Lives

variable [Scalar α] {board now : Board} {worker current : Worker α} {past : List (Deed α)}
variable {first : Nat} {collaborators : Collaborators α}

/-- A sheltered worker stays so among patient calls. -/
theorem Life.isSheltered
    (life : Life (Board.Amid fun call => call.isPatient = true) board worker past now current)
    (steady : worker.IsSteady) (sheltered : worker.IsSheltered first board) :
    current.IsSheltered first now := by
  induction life with
  | begin => exact sheltered
  | wait _ amid ih => exact ih.wait amid
  | work life agenda stepped ih =>
      exact (Worker.outcome_of_step? (life.isSteady steady) agenda stepped).isSheltered agenda ih

/-- Where a run stands is decided by its collaborators and by how many of its deeds move it. -/
theorem Life.standing_eq
    (life : Life (Board.Amid fun call => call.isPatient = true) board worker past now current)
    (steady : worker.IsSteady) (sheltered : worker.IsSheltered first board)
    (answers : collaborators.Answers [] past) :
    current.standing first now (callsIn past) =
      (Standing.advance collaborators)^[movesIn past] (worker.standing first board []) := by
  induction life with
  | begin => rfl
  | @wait past _ _ current _ amid ih => rw [current.standing_of_amid amid, ih answers]
  | @work past now after current next task rest reply life agenda stepped ih =>
      obtain ⟨before, answered, -⟩ := Collaborators.answers_append.mp answers
      have shelteredNow := life.isSheltered steady sheltered
      have goesOn := ih before
      rw [movesIn_append_singleton, callsIn_append, callsIn_singleton]
      cases idle : Deed.isIdle ⟨task, reply⟩ with
      | true =>
          have silent : task.asks? = none := by
            cases task <;> first | rfl | exact absurd idle Bool.false_ne_true
          have outcome := Worker.outcome_of_step? (life.isSteady steady) agenda stepped
          rw [silent, Option.toList_none, List.append_nil,
            outcome.standing_of_isIdle agenda shelteredNow idle]
          exact goesOn
      | false =>
          rw [List.nil_append] at answered
          rw [Worker.standing_of_step? agenda stepped shelteredNow answered idle, goesOn]
          exact (Function.iterate_succ_apply' _ _ _).symm

/-- A run that has moved on from somewhere was not over there. -/
theorem Life.agenda_ne_nil
    (life : Life (Board.Amid fun call => call.isPatient = true) board worker past now current)
    (steady : worker.IsSteady) (sheltered : worker.IsSheltered first board)
    (answers : collaborators.Answers [] past) {count : Nat} (earlier : count < movesIn past) :
    ((Standing.advance collaborators)^[count]
      (worker.standing first board [])).worker.agenda ≠ [] := by
  induction life with
  | begin => exact absurd earlier (Nat.not_lt_zero count)
  | wait _ _ ih => exact ih answers earlier
  | @work past now after current next task rest reply life agenda stepped ih =>
      obtain ⟨before, -⟩ := Collaborators.answers_append.mp answers
      rcases Nat.lt_or_ge count (movesIn past) with earlier | latest
      · exact ih before earlier
      · rw [movesIn_append_singleton] at earlier
        have last : count = movesIn past := by
          have one := Bool.toNat_le (!Deed.isIdle ⟨task, reply⟩)
          omega
        rw [last, ← life.standing_eq steady sheltered before]
        simp [Worker.standing, Worker.bare, agenda]

section Patience

variable {after : Board} {next : Worker α} {task : Task α} {rest more : List (Task α)}
variable {reply : Option (Reply α)}

omit [Scalar α] in
theorem Deed.isIdle_of_not_isLook (plain : task.isLook = false) :
    Deed.isIdle ⟨task, reply⟩ = false := by
  cases task <;> first | rfl | exact absurd plain.symm Bool.false_ne_true

/-- A task that succeeds takes the patience of a delay, unless it moves the run on or comes before the
end. -/
theorem Task.patience_of_spawns (plain : Worker.ArePlain rest)
    (spawns : task.Spawns board worker reply after more) :
    1 + Worker.patience (more ++ rest) ≤ task.patience +
      3 * (!Deed.isIdle ⟨task, reply⟩).toNat + 3 * (Deed.isEarly ⟨task, reply⟩).toNat := by
  cases look : task.isLook with
  | true =>
      obtain ⟨rfl | ⟨other, look, rfl⟩, used⟩ := Task.looks_of_spawns look spawns
      · rw [List.nil_append, plain.patience_eq]
        simp only [Worker.patience] at used
        omega
      · rw [List.singleton_append]
        simp only [Worker.patience] at used ⊢
        omega
  | false =>
      rw [Deed.isIdle_of_not_isLook look, Bool.not_false, Bool.toNat_true]
      rcases Task.arePlain_of_spawns look spawns with none | ⟨id, _, deadline, -, rfl⟩
      · rw [(Worker.arePlain_append.mpr ⟨none, plain⟩).patience_eq]
        omega
      · rw [List.singleton_append, Worker.patience, Task.patience]
        omega

/-- A step takes the patience of a delay, unless it moves the run on or comes before the end. -/
theorem Worker.Outcome.patience_le (agenda : worker.agenda = task :: rest)
    (outcome : Outcome board worker task rest reply after next)
    (plain : ArePlain (ahead worker.agenda)) :
    1 + patience next.agenda ≤ patience worker.agenda +
      3 * (!Deed.isIdle ⟨task, reply⟩).toNat + 3 * (Deed.isEarly ⟨task, reply⟩).toNat := by
  rw [agenda] at plain ⊢
  have behind := arePlain_tail plain
  cases outcome with
  | sound _ spawns => exact Task.patience_of_spawns behind spawns
  | broken =>
      change 1 + patience (unwind rest) ≤ task.patience + _ + _
      rw [behind.unwind.patience_eq]
      cases look : task.isLook with
      | true =>
          have own := Task.one_le_patience look
          omega
      | false =>
          rw [Deed.isIdle_of_not_isLook look, Bool.not_false, Bool.toNat_true]
          omega
  | cleaning failed cleans spawns =>
      have look := Task.isLook_of_cleansUp cleans
      rcases Task.arePlain_of_spawns look spawns with none | ⟨_, _, _, rfl, -⟩
      · rw [agenda_withAgenda, (arePlain_append.mpr ⟨none, behind⟩).unwind.patience_eq,
          Deed.isIdle_of_not_isLook look, Bool.not_false, Bool.toNat_true]
        omega
      · exact absurd cleans Bool.false_ne_true

end Patience

/-- A run makes a bounded number of steps for each one that moves it on, apart from looks at the
clock before the end of a delay. -/
theorem Life.length_add_patience_le {others : Board → Board → Prop}
    (life : Life others board worker past now current) (steady : worker.IsSteady)
    (plain : Worker.ArePlain (Worker.ahead worker.agenda)) :
    past.length + Worker.patience current.agenda ≤ Worker.patience worker.agenda +
      3 * movesIn past + 3 * past.countP Deed.isEarly := by
  induction life with
  | begin => simp [movesIn]
  | wait _ _ ih => exact ih
  | @work past _ _ _ _ task rest reply life agenda stepped ih =>
      have counted : (past ++ [(⟨task, reply⟩ : Deed α)]).countP Deed.isEarly =
          past.countP Deed.isEarly + (Deed.isEarly ⟨task, reply⟩).toNat := by
        cases early : Deed.isEarly ⟨task, reply⟩ <;> simp [List.countP_append, early]
      have used :=
        (Worker.outcome_of_step? (life.isSteady steady) agenda stepped).patience_le agenda
          (life.arePlain_ahead steady plain)
      rw [List.length_append, List.length_singleton, movesIn_append_singleton]
      omega

end Lives

end Scan
