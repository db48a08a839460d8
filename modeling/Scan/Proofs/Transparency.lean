import Scan.Proofs.Course

/-!
# Pauses leave no trace

Two runs of one sequence without limits of time, with the same collaborators and among calls that
neither abort nor skip, cannot be told apart by what they do: they make the same calls, publish the
same events of their steps and end with the same report, however often either of them is paused.
-/

namespace Scan

variable {α : Type}

/-! ## Signals -/

/-- What a run is known by from outside: a call to the evaluator or to a channel, or an event of its
steps. -/
inductive Signal (α : Type) where
  | call (query : Query α)
  | event (event : Event)

/-- The signal that a task gives, if it gives one. -/
def Task.signal? (board : Board) (task : Task α) : Option (Signal α) :=
  match task.asks? with
  | some query => some (.call query)
  | none => ((task.event? board).filter Event.isOfSteps).map .event

/-- The signal that a run gives at a turn, if it gives one: the call that its worker makes, or the
event that is published. -/
def Turn.signal? (turn : Turn α) (run : Nat) : Option (Signal α) :=
  (turn.deed? run).bind fun deed =>
    match deed.task.asks? with
    | some query => some (.call query)
    | none => (turn.event?.filter Event.isOfSteps).map .event

/-- The signals that a run gives at some turns. -/
def signalsOf (run : Nat) (turns : List (Turn α)) : List (Signal α) :=
  turns.filterMap (·.signal? run)

/-- The signal that a run gives next. -/
def Standing.signal? (standing : Standing α) : Option (Signal α) :=
  standing.worker.agenda.head?.bind (·.signal? standing.board)

/-- The signals that a run gives in its next steps with its collaborators. -/
def Standing.signals [Scalar α] (collaborators : Collaborators α) (start : Standing α) :
    Nat → List (Signal α)
  | 0 => []
  | count + 1 =>
      signals collaborators start count ++ ((advance collaborators)^[count] start).signal?.toList

theorem Standing.signals_isPrefix [Scalar α] (collaborators : Collaborators α)
    (start : Standing α) {count later : Nat} (le : count ≤ later) :
    start.signals collaborators count <+: start.signals collaborators later := by
  induction le with
  | refl => exact List.prefix_rfl
  | step _ ih => exact ih.trans (List.prefix_append _ _)

/-- A task gives the same signal apart from numbers and times. -/
theorem Task.signal?_bare {first : Nat} {task : Task α} (board : Board)
    (untimed : task.IsUntimedFrom first) :
    (task.bare first).signal? (board.bare first) = task.signal? board := by
  cases task with
  | resolve id quantity purpose => cases quantity <;> rfl
  | announceFinish step id =>
      rw [bare, signal?, event?, Board.monitor_bare untimed]
      rfl
  | announce event => cases event <;> rfl
  | _ => rfl

theorem Task.signal?_of_isIdle {task : Task α} {reply : Option (Reply α)} (board : Board)
    (idle : Deed.isIdle ⟨task, reply⟩ = true) : task.signal? board = none := by
  cases task <;> first | rfl | exact absurd idle Bool.false_ne_true

/-- Where a worker stands it gives the signal of its next task. -/
theorem Worker.signal?_standing {first : Nat} {board : Board} {worker : Worker α} {task : Task α}
    {rest : List (Task α)} (calls : List (Query α)) (agenda : worker.agenda = task :: rest)
    (sheltered : worker.IsSheltered first board) :
    (worker.standing first board calls).signal? = task.signal? board := by
  have untimed : task.IsUntimedFrom first :=
    sheltered.untimed task (agenda ▸ List.mem_cons_self)
  simp [Standing.signal?, standing, bare, agenda, Task.signal?_bare board untimed]

/-- What a worker does at a turn is the next task on its agenda. -/
theorem Turn.exists_of_deed? {turn : Turn α} {run : Nat} {deed : Deed α}
    (does : turn.deed? run = some deed) :
    turn.act = .work run deed.reply ∧ ∃ worker rest, turn.scene.workers[run]? = some worker ∧
      worker.agenda = deed.task :: rest := by
  obtain ⟨scene, act⟩ := turn
  cases act with
  | work other reply =>
      simp only [deed?] at does
      split at does
      · rename_i same
        subst same
        obtain ⟨worker, found, first⟩ := Option.bind_eq_some_iff.mp does
        obtain ⟨task, head, rfl⟩ := Option.map_eq_some_iff.mp first
        obtain ⟨rest, agenda⟩ := List.head?_eq_some_iff.mp head
        exact ⟨rfl, worker, rest, found, agenda⟩
      · cases does
  | _ => cases does

theorem Turn.signal?_of_deed? {turn : Turn α} {run : Nat} {deed : Deed α}
    (does : turn.deed? run = some deed) :
    turn.signal? run = deed.task.signal? turn.scene.board := by
  obtain ⟨acts, worker, rest, found, agenda⟩ := exists_of_deed? does
  have publishes : turn.event? = deed.task.event? turn.scene.board := by
    simp [event?, acts, found, agenda]
  rw [signal?, does, Option.bind_some, publishes, Task.signal?]

/-! ## Signals in a play -/

section Plays

variable [Scalar α] {sequencer : Sequencer α} {collaborators : Collaborators α}
variable {past future : List (Turn α)} {scene next last : Scene α} {act : Act α} {run base : Nat}
variable {origin worker : Worker α} {first view : Board} {since : List (Turn α)}

/-- At a turn of its own a run gives the signal that is next where it stands. -/
theorem Scene.Sound.signal?_turn (sound : Scene.Sound sequencer past scene)
    (accompanied : Accompanied (fun call => call.isPatient = true) origin first since scene run
      worker view)
    (acted : scene.act? act = some next) (sheltered : worker.IsSheltered base view)
    {deed : Deed α} (does : (⟨scene, act⟩ : Turn α).deed? run = some deed)
    (calls : List (Query α)) :
    (⟨scene, act⟩ : Turn α).signal? run = (worker.standing base view calls).signal? := by
  obtain ⟨rfl, worker', rest, found, agenda⟩ := Turn.exists_of_deed? does
  cases accompanied.found.symm.trans found
  rw [Turn.signal?_of_deed? does, worker.signal?_standing calls agenda sheltered]
  by_cases current : scene.IsCurrent run
  · rw [accompanied.sees current]
  · -- a run that is over only publishes events that do not depend on the board
    obtain ⟨_, board, after, found', stepped, -⟩ := Scene.exists_of_work acted
    cases found.symm.trans found'
    obtain ⟨_, _, _, followed, -⟩ := sound.follows found
    obtain ⟨event, _, announces, -⟩ :=
      followed.step_of_over (mt followed.current.mpr current) stepped
    obtain ⟨same, -⟩ := List.cons.inj (agenda.symm.trans announces)
    rw [same]
    rfl

/-- The signals of a run are decided by its collaborators and by how many of its deeds move it. -/
theorem Scene.Plays.signalsOf_eq (plays : sequencer.scene.Plays past scene)
    (later : scene.Plays future last)
    (accompanied : Accompanied (fun call => call.isPatient = true) origin first [] scene run origin
      first)
    (steady : origin.IsSteady) (sheltered : origin.IsSheltered base first)
    (patient : ∀ turn ∈ future, ∀ call, turn.call? = some call → call.isPatient = true)
    (answers : collaborators.Answers [] (deedsOf run future)) :
    signalsOf run future =
      (origin.standing base first []).signals collaborators (movesIn (deedsOf run future)) := by
  induction later with
  | begin => rfl
  | @turn future scene next act more acted ih =>
      rw [deedsOf_append] at answers
      obtain ⟨before, -⟩ := Collaborators.answers_append.mp answers
      have earlier : ∀ turn ∈ future, ∀ call, turn.call? = some call → call.isPatient = true :=
        fun turn member => patient turn (List.mem_append_left _ member)
      obtain ⟨worker, view, halfway⟩ := plays.accompanied more earlier accompanied
      have signalled : signalsOf run (future ++ [⟨scene, act⟩]) =
          signalsOf run future ++ ((⟨scene, act⟩ : Turn α).signal? run).toList := by
        cases signal : (⟨scene, act⟩ : Turn α).signal? run <;> simp [signalsOf, signal]
      rw [signalled, ih earlier before]
      cases does : (⟨scene, act⟩ : Turn α).deed? run with
      | none => rw [deedsOf_concat does, Turn.signal?, does]; simp
      | some deed =>
          have done : deedsOf run (future ++ [⟨scene, act⟩]) = deedsOf run future ++ [deed] := by
            simp [deedsOf, does]
          have life := halfway.life
          rw [List.nil_append] at life
          have shelteredNow := life.isSheltered steady sheltered
          rw [done, movesIn_append_singleton]
          cases idle : deed.isIdle with
          | true =>
              rw [Turn.signal?_of_deed? does, Task.signal?_of_isIdle _ idle]
              simp
          | false =>
              rw [(plays.append more).sound.signal?_turn halfway acted shelteredNow does
                (callsIn (deedsOf run future)), life.standing_eq steady sheltered before]
              rfl

end Plays

/-! ## Runs with collaborators -/

/-- The turns of one run from its beginning on, in which no call aborts or skips and its collaborators
answer all calls. -/
structure Sequencer.Runs [Scalar α] (sequencer : Sequencer α) (collaborators : Collaborators α)
    (run : Nat) (future : List (Turn α)) (last : Scene α) : Prop where
  begins : ∃ past scene runId next, sequencer.scene.Plays past scene ∧
    scene.sequencer.isTaken = false ∧ run = scene.workers.length ∧
    scene.act? (.execute runId) = some next ∧ next.Plays future last
  patient : ∀ turn ∈ future, ∀ call, turn.call? = some call → call.isPatient = true
  answers : collaborators.Answers [] (deedsOf run future)

/-- How far a run has come: the number of its steps that have moved it. -/
structure Sequencer.Reaches [Scalar α] (sequencer : Sequencer α)
    (collaborators : Collaborators α) (run : Nat) (future : List (Turn α)) (last : Scene α)
    (worker : Worker α) (count : Nat) : Prop where
  found : last.workers[run]? = some worker
  standing : ∃ base board calls, worker.standing base board calls =
    (Standing.advance collaborators)^[count] sequencer.standing
  signals : signalsOf run future = sequencer.standing.signals collaborators count
  busy : ∀ earlier < count,
    ((Standing.advance collaborators)^[earlier] sequencer.standing).worker.agenda ≠ []
  count_le : count ≤ (deedsOf run future).length
  length_le :
    (deedsOf run future).length ≤ 3 * count + 3 * (deedsOf run future).countP Deed.isEarly

section Runs

variable [Scalar α] {sequencer : Sequencer α} {collaborators : Collaborators α}
variable {scene next last last' : Scene α} {run run' count count' : Nat} {runId : String}
variable {future future' : List (Turn α)} {worker worker' : Worker α}

omit [Scalar α] in
/-- A run that begins stands where every run of its sequencer begins. -/
theorem Worker.standing_of_begins {board : Board}
    (work : board.work = WorkCounter.reset sequencer.totalWork) :
    (sequencer.worker runId).standing board.monitors.size board [] = sequencer.standing := by
  have boards : board.bare board.monitors.size =
      { work := WorkCounter.reset sequencer.totalWork } := by
    refine Board.bare_eq_of_monitors (by rw [work]) fun id => ?_
    rw [Array.getElem?_eq_none (Nat.le_add_right _ id)]
    rfl
  rw [standing, boards]
  rfl

omit [Scalar α] in
/-- A run that begins without limits of time is sheltered. -/
theorem Worker.isSheltered_of_begins {board : Board} (control : board.control = {})
    (untimed : Command.areUntimed sequencer.steps = true) :
    (sequencer.worker runId).IsSheltered board.monitors.size board where
  free := by rw [control]
  size := Nat.le_refl _
  unskipped := fun _ beyond => .of_isNew (board.isNew_monitor_of_ge beyond)
  untimed := by
    simp [Sequencer.worker, ofSteps, Task.IsUntimedFrom, untimed]

/-- Every run comes as far as its deeds have moved it. -/
theorem Sequencer.Runs.reaches (runs : sequencer.Runs collaborators run future last)
    (untimed : Command.areUntimed sequencer.steps = true) :
    ∃ worker, sequencer.Reaches collaborators run future last worker
      (movesIn (deedsOf run future)) := by
  obtain ⟨⟨past, scene, runId, next, plays, free, rfl, acted, later⟩, patient, answers⟩ := runs
  have played := plays.turn acted
  have own := plays.sound.own
  simp only [Scene.act?, Sequencer.beginRun, free] at acted
  have made := (Option.some.inj acted).symm
  obtain ⟨followed, work, control⟩ :=
    Scene.followed_of_begins own (congrArg Scene.workers made) (congrArg Scene.sequencer made)
  have steady : (sequencer.worker runId).IsSteady := Worker.isSteady_ofSteps
  have sheltered : (sequencer.worker runId).IsSheltered next.board.monitors.size next.board :=
    Worker.isSheltered_of_begins control untimed
  have accompanied : Accompanied (fun call => call.isPatient = true) (sequencer.worker runId)
      next.board [] next scene.workers.length (sequencer.worker runId) next.board :=
    ⟨followed.found, .begin, fun _ => rfl⟩
  obtain ⟨worker, view, reached⟩ := played.accompanied later patient accompanied
  have life := reached.life
  have begins : (sequencer.worker runId).standing _ next.board [] = sequencer.standing :=
    Worker.standing_of_begins work
  rw [List.nil_append] at life
  have stands := life.standing_eq steady sheltered answers
  rw [begins] at stands
  refine ⟨worker, reached.found, ⟨_, _, _, stands⟩, ?_, fun earlier less => ?_, ?_, ?_⟩
  · rw [played.signalsOf_eq later accompanied steady sheltered patient answers, begins]
  · rw [← begins]
    exact life.agenda_ne_nil steady sheltered answers less
  · exact List.countP_le_length
  · have bound := life.length_add_patience_le steady (by
      simp [Sequencer.worker, Worker.ofSteps, Worker.ahead, Task.isLook])
    have start : Worker.patience (sequencer.worker runId).agenda = 0 := rfl
    omega

namespace Sequencer.Reaches

/-- A run that is over has come to the end of its course, so no other run has come further. -/
theorem le_of_over (whole : sequencer.Reaches collaborators run future last worker count)
    (other : sequencer.Reaches collaborators run' future' last' worker' count')
    (ended : worker.agenda = []) : count' ≤ count := by
  obtain ⟨_, _, _, standing⟩ := whole.standing
  rcases Nat.lt_or_ge count count' with further | reached
  · refine absurd ?_ (other.busy count further)
    rw [← standing]
    simp [Worker.standing, Worker.bare, ended]
  · exact reached

/-- Runs that have come equally far have equal reports, apart from names and durations. -/
theorem report_eq (one : sequencer.Reaches collaborators run future last worker count)
    (other : sequencer.Reaches collaborators run' future' last' worker' count) :
    worker'.report.map RunReport.bare = worker.report.map RunReport.bare := by
  obtain ⟨_, _, _, standing⟩ := one.standing
  obtain ⟨_, _, _, standing'⟩ := other.standing
  exact congrArg (fun standing : Standing α => standing.worker.report)
    (standing'.trans standing.symm)

/-- A run that has come further has given more signals. -/
theorem signals_isPrefix (one : sequencer.Reaches collaborators run future last worker count)
    (other : sequencer.Reaches collaborators run' future' last' worker' count')
    (further : count ≤ count') : signalsOf run future <+: signalsOf run' future' := by
  rw [one.signals, other.signals]
  exact Standing.signals_isPrefix collaborators _ further

end Sequencer.Reaches

/-- A run that is over has written its report. -/
theorem Sequencer.Runs.exists_report (runs : sequencer.Runs collaborators run future last)
    (found : last.workers[run]? = some worker) (ended : worker.agenda = []) :
    ∃ report, worker.report = some report := by
  obtain ⟨⟨_, _, _, _, plays, -, -, acted, later⟩, -, -⟩ := runs
  obtain ⟨_, _, _, followed, -⟩ := ((plays.turn acted).append later).sound.follows found
  obtain ⟨report, reported, -⟩ := followed.report_of_done ended
  exact ⟨report, reported⟩

/-- A run that is neither over nor held can go on with its collaborators. -/
theorem Sequencer.Runs.goesOn (runs : sequencer.Runs collaborators run future last)
    (found : last.workers[run]? = some worker) (busy : worker.agenda ≠ [])
    (free : worker.next last.board ≠ .held) :
    ∃ reply final, last.act? (.work run reply) = some final ∧
      sequencer.Runs collaborators run (future ++ [⟨last, .work run reply⟩]) final := by
  obtain ⟨⟨past, scene, runId, next, plays, fresh, latest, acted, later⟩, patient, answers⟩ := runs
  obtain ⟨task, rest, agenda⟩ := List.exists_cons_of_ne_nil busy
  have accepts : (worker.step? last.board
      (collaborators.reply (callsIn (deedsOf run future)) task)).isSome = true :=
    Worker.isSome_step?_reply agenda free
  obtain ⟨⟨board, after⟩, stepped⟩ := Option.isSome_iff_exists.mp accepts
  have goesOn : last.act?
      (.work run (collaborators.reply (callsIn (deedsOf run future)) task)) =
        some { last.withBoard board with workers := last.workers.set run after } := by
    simp [Scene.act?, found, stepped]
  refine ⟨_, _, goesOn, ⟨past, scene, runId, next, plays, fresh, latest, acted,
    later.turn goesOn⟩, fun turn member call accesses => ?_, ?_⟩
  · rcases List.mem_append.mp member with member | member
    · exact patient turn member call accesses
    · rw [List.mem_singleton.mp member] at accesses
      cases accesses
  · rw [deedsOf_work found agenda]
    exact Collaborators.answers_append.mpr ⟨answers, fun _ => rfl, trivial⟩

variable {sequence : Sequence} {pollInterval : Duration}

/-- Two runs of a sequence without timeouts, with the same collaborators and among calls that neither
abort nor skip, do the same: as far as both of them have come they have given the same signals, and
at their ends they have written the same report apart from its name and its duration. That holds for
a run that is paused and resumed again and again and for one that is never paused. A run goes on with
its collaborators unless it is over or held, and comes as far as the other one with a bounded number
of steps, apart from looks at the clock before the end of a delay. -/
theorem pauses_are_transparent (zero : Scalar.exact (Scalar.zero : α) = some 0)
    (accepted : Sequencer.ofSequence sequence pollInterval = .ok sequencer)
    (untimed : sequence.isUntimed = true)
    (one : sequencer.Runs collaborators run future last)
    (other : sequencer.Runs collaborators run' future' last') :
    ∃ worker worker', last.workers[run]? = some worker ∧ last'.workers[run']? = some worker' ∧
      (signalsOf run future <+: signalsOf run' future' ∨
        signalsOf run' future' <+: signalsOf run future) ∧
      (signalsOf run future <+: signalsOf run' future' ∨
        (deedsOf run' future').length ≤ 3 * (deedsOf run future).length +
          3 * (deedsOf run' future').countP Deed.isEarly) ∧
      (worker.agenda = [] → signalsOf run' future' <+: signalsOf run future ∧
        (deedsOf run' future').length ≤ 3 * (deedsOf run future).length +
          3 * (deedsOf run' future').countP Deed.isEarly) ∧
      (worker.agenda = [] → worker'.agenda = [] →
        signalsOf run' future' = signalsOf run future ∧
          ∃ report report', worker.report = some report ∧ worker'.report = some report' ∧
            report'.bare = report.bare) ∧
      (worker'.agenda = [] ∨ worker'.next last'.board = .held ∨
        ∃ reply final, last'.act? (.work run' reply) = some final ∧
          sequencer.Runs collaborators run' (future' ++ [⟨last', .work run' reply⟩]) final) := by
  obtain ⟨compiled, -⟩ := Sequencer.ofSequence_eq_ok accepted
  have unlimited : Command.areUntimed sequencer.steps = true :=
    Command.areUntimed_of_compileAll zero sequence.steps compiled untimed
  obtain ⟨worker, reached⟩ := one.reaches unlimited
  obtain ⟨worker', reached'⟩ := other.reaches unlimited
  have counted := reached.count_le
  have bound := reached'.length_le
  refine ⟨worker, worker', reached.found, reached'.found, ?_, ?_, fun ended => ?_,
    fun ended ended' => ?_, ?_⟩
  · rcases Nat.le_total (movesIn (deedsOf run future)) (movesIn (deedsOf run' future')) with
      further | further
    · exact .inl (reached.signals_isPrefix reached' further)
    · exact .inr (reached'.signals_isPrefix reached further)
  · rcases Nat.le_total (movesIn (deedsOf run future)) (movesIn (deedsOf run' future')) with
      further | further
    · exact .inl (reached.signals_isPrefix reached' further)
    · exact .inr (by omega)
  · have further := reached.le_of_over reached' ended
    exact ⟨reached'.signals_isPrefix reached further, by omega⟩
  · have same : movesIn (deedsOf run' future') = movesIn (deedsOf run future) :=
      Nat.le_antisymm (reached.le_of_over reached' ended) (reached'.le_of_over reached ended')
    rw [same] at reached'
    refine ⟨reached'.signals.trans reached.signals.symm, ?_⟩
    obtain ⟨report, reported⟩ := one.exists_report reached.found ended
    obtain ⟨report', reported'⟩ := other.exists_report reached'.found ended'
    have reports := reached.report_eq reached'
    rw [reported, reported'] at reports
    exact ⟨report, report', reported, reported', Option.some.inj reports⟩
  · by_cases ended : worker'.agenda = []
    · exact .inl ended
    · by_cases held : worker'.next last'.board = .held
      · exact .inr (.inl held)
      · exact .inr (.inr (other.goesOn reached'.found ended held))

/-! ## A run that is paused -/

instance Collaborators.decidableAnswers [DecidableEq α] (collaborators : Collaborators α) :
    (before : List (Query α)) → (past : List (Deed α)) →
      Decidable (collaborators.Answers before past)
  | _, [] => .isTrue trivial
  | before, deed :: rest =>
      have := decidableAnswers collaborators (before ++ deed.task.asks?.toList) rest
      inferInstanceAs (Decidable ((_ → _) ∧ _))

/-- Whether a turn is no access of a call that aborts or skips. -/
def Turn.isPatient (turn : Turn α) : Bool :=
  match turn.call? with
  | some call => call.isPatient
  | none => true

/-- Plays some acts behind the beginning of a run, and tests whether they bring it to its end with its
collaborators and what comes of them. -/
def Scene.rehearseRun [DecidableEq α] (sequence : Sequence) (pollInterval : Duration)
    (collaborators : Collaborators α) (acts : List (Act α)) (test : List (Turn α) → Bool) : Bool :=
  rehearseAround sequence pollInterval [] (.execute "run") acts fun scene _ future last =>
    !scene.sequencer.isTaken && scene.workers.length == 0 && future.all Turn.isPatient &&
      decide (collaborators.Answers [] (deedsOf 0 future)) &&
      last.workers.all (·.agenda.isEmpty) && test future

theorem Scene.exists_of_rehearseRun [DecidableEq α] {acts : List (Act α)}
    {test : List (Turn α) → Bool}
    (passed : rehearseRun sequence pollInterval collaborators acts test = true) :
    ∃ sequencer future last, Sequencer.ofSequence sequence pollInterval = .ok sequencer ∧
      sequencer.Runs collaborators 0 future last ∧
      (∀ worker, last.workers[0]? = some worker → worker.agenda = []) ∧ test future = true := by
  obtain ⟨sequencer, past, scene, next, future, last, accepted, plays, acted, later, tested⟩ :=
    exists_of_rehearseAround passed
  simp only [Bool.and_eq_true, Bool.not_eq_true', beq_iff_eq, List.all_eq_true,
    decide_eq_true_eq, List.isEmpty_iff] at tested
  obtain ⟨⟨⟨⟨⟨free, none⟩, patient⟩, answers⟩, ended⟩, test⟩ := tested
  refine ⟨sequencer, future, last, accepted,
    ⟨⟨past, scene, "run", next, plays, free, none.symm, acted, later⟩, ?_, answers⟩,
    fun worker found => ended worker (List.mem_of_getElem? found), test⟩
  intro turn member call accesses
  have welcome := patient turn member
  rwa [Turn.isPatient, accesses] at welcome

end Runs

/-- A channel that shows what is written to it from the second reading on. -/
def Collaborators.settling : Collaborators Float where
  evaluate _ text := .error ⟨text, "no variables"⟩
  read before _ := .ok (if before.length < 2 then 0 else 1)
  write _ _ _ := .ok ()

/-- The acts of a run that writes a value and waits for it, with other acts before and after the rest
between its two readings. -/
def Scene.settlingActs (now : Instant) (before after : List (Act Float)) : List (Act Float) :=
  let told : Act Float := .work 0 (some (.told now))
  let steps (count : Nat) : List (Act Float) := List.replicate count (.work 0 none)
  steps 2 ++ [told] ++ steps 7 ++ [.work 0 (some (.wrote (.ok ())))] ++ steps 1 ++ [told, told] ++
    steps 1 ++ [.work 0 (some (.found (.ok 0)))] ++ before ++ [.work 0 (some .rested)] ++ after ++
    steps 1 ++ [.work 0 (some (.found (.ok 1)))] ++ steps 11 ++ [told] ++ steps 3

/-- A run that is held between two readings until it is resumed, beside one without any call. -/
theorem hold_between_readings_is_transparent :
    ∃ (plain paused : List (Turn Float)) (report report' : RunReport),
      (∀ turn ∈ plain, turn.call? = none) ∧
        (∃ turn ∈ paused, ∃ worker ∈ turn.scene.workers, worker.next turn.scene.board = .held) ∧
        signalsOf 0 paused = signalsOf 0 plain ∧ report'.bare = report.bare := by
  have plays : Scene.rehearseRun ⟨none, [.set "motor" 1]⟩ ⟨2000000⟩ .settling
      (Scene.settlingActs 0 [] []) (fun plain => plain.all (·.call?.isNone)) = true := by
    decide +kernel
  have playsPaused : Scene.rehearseRun ⟨none, [.set "motor" 1]⟩ ⟨2000000⟩ .settling
      (Scene.settlingActs 5000000 [.invoke .pause, .access 0 0, .access 0 0]
        [.invoke .resume, .access 0 0, .access 0 0])
      (fun paused => paused.any fun turn =>
        turn.scene.workers.any (Worker.isHeld turn.scene.board)) = true := by
    decide +kernel
  obtain ⟨sequencer, plain, last, accepted, runs, ended, alone⟩ :=
    Scene.exists_of_rehearseRun plays
  obtain ⟨sequencer', paused, last', accepted', runs', ended', holds⟩ :=
    Scene.exists_of_rehearseRun playsPaused
  cases accepted.symm.trans accepted'
  have zero : Scalar.exact (Scalar.zero : Float) = some 0 := by decide +kernel
  obtain ⟨worker, worker', found, found', -, -, -, same, -⟩ :=
    pauses_are_transparent zero accepted rfl runs runs'
  obtain ⟨signals, report, report', -, -, reports⟩ :=
    same (ended worker found) (ended' worker' found')
  refine ⟨plain, paused, report, report', fun turn member => ?_, ?_, signals, reports⟩
  · exact Option.isNone_iff_eq_none.mp (List.all_eq_true.mp alone turn member)
  · obtain ⟨turn, member, someone⟩ := List.any_eq_true.mp holds
    obtain ⟨worker, own, held⟩ := List.any_eq_true.mp someone
    exact ⟨turn, member, worker, own, Worker.isHeld_iff.mp held⟩

end Scan
