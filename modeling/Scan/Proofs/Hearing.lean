import Scan.Proofs.Audience
import Scan.Proofs.Chronicle
import Scan.Proofs.Speech

/-!
# What is heard of a run

A subscriber that is there before a run begins hears its whole chronicle. In between it hears that
the run is paused and resumed, by turns, as long as every call says what it has done before anything
else happens.
-/

namespace Scan

variable {α : Type}

/-! ## Whose events they are -/

/-- The events that the worker of a run publishes in some turns. -/
def toldOf (run : Nat) (turns : List (Turn α)) : List Event :=
  (turns.filter (·.isTold run)).filterMap Turn.event?

section Turns

variable {run : Nat} {turn : Turn α}

@[simp] theorem toldOf_append (run : Nat) (first second : List (Turn α)) :
    toldOf run (first ++ second) = toldOf run first ++ toldOf run second := by
  simp [toldOf]

/-- A turn that is none of a worker tells nothing of its run. -/
theorem toldOf_of_silent (silent : turn.deed? run = none) : toldOf run [turn] = [] := by
  obtain ⟨scene, act⟩ := turn
  cases act with
  | work other reply =>
      by_cases own : other = run
      · subst own
        have nothing : (⟨scene, .work other reply⟩ : Turn α).event? = none := by
          simp only [Turn.deed?, if_true] at silent
          cases found : scene.workers[other]? with
          | none => simp [Turn.event?, found]
          | some worker =>
              cases first : worker.agenda.head? with
              | none => simp [Turn.event?, found, first]
              | some task => simp [found, first] at silent
        simp [toldOf, Turn.isTold, nothing]
      · simp [toldOf, Turn.isTold, own]
  | _ => rfl

/-- A run that has done nothing has told nothing. -/
theorem toldOf_of_deedsOf {turns : List (Turn α)} (nothing : deedsOf run turns = []) :
    toldOf run turns = [] := by
  induction turns with
  | nil => rfl
  | cons turn rest ih =>
      rw [deedsOf, List.filterMap_eq_nil_iff] at nothing
      rw [← List.singleton_append, toldOf_append,
        toldOf_of_silent (nothing turn List.mem_cons_self), List.nil_append]
      exact ih (List.filterMap_eq_nil_iff.mpr fun other member =>
        nothing other (List.mem_cons_of_mem _ member))

end Turns

/-! ## What the worker tells -/

section Told

variable [Scalar α] {sequencer : Sequencer α} {past future : List (Turn α)}
variable {scene next last : Scene α} {act : Act α} {run : Nat} {worker : Worker α}
variable {told : List Event} {runId : String}

/-- A board and a worker as a run of a sequencer comes by them: the count of work began anew with the
run, and others did to the board what they may. -/
def Sequencer.Lives (sequencer : Sequencer α) (board : Board) (worker : Worker α) : Prop :=
  ∃ runId first past, Life Board.Foreign first (sequencer.worker runId) past board worker ∧
    first.work = WorkCounter.reset sequencer.totalWork

/-- A run finds fresh monitors for the steps ahead, and counts out of the total work. -/
theorem Sequencer.Lives.known {board : Board} (lives : sequencer.Lives board worker) :
    worker.IsNumbered board ∧ board.work.total = sequencer.totalWork := by
  obtain ⟨runId, first, past, life, work⟩ := lives
  constructor
  · exact life.isNumbered nofun id (Worker.isNumbered_ofSteps ..)
  · rw [life.total_eq nofun Board.Foreign.work, work]
    rfl

/-- As long as the worker of a run has its report still to write, the board is that of its life. -/
theorem Followed.lives {runId : String} {first view : Board}
    (followed : Followed (sequencer.worker runId) first past scene run worker view)
    (work : first.work = WorkCounter.reset sequencer.totalWork) (isOpen : worker.IsOpen) :
    sequencer.Lives scene.board worker := by
  rw [← followed.sees (followed.current.mpr isOpen)]
  exact ⟨runId, first, deedsOf run past, followed.life, work⟩

/-- Something that holds of the board, the worker and what has been told at the beginning of a run,
and that goes on to hold: after a step of the worker, after what others do to the board while the
run is in progress, and after anything that is done to the board once the run is over. -/
structure Sequencer.Keeps (sequencer : Sequencer α)
    (holds : Board → Worker α → List Event → Prop) : Prop where
  step : ∀ {board after : Board} {worker next : Worker α} {task : Task α} {rest : List (Task α)}
    {reply : Option (Reply α)} {told : List Event}, worker.agenda = task :: rest →
      Worker.Outcome board worker task rest reply after next →
      (worker.IsOpen → sequencer.Lives board worker) → holds board worker told →
      holds after next (told ++ (task.event? board).toList)
  foreign : ∀ {board after : Board} {worker : Worker α} {told : List Event},
    board.Foreign after → holds board worker told → holds after worker told
  ended : ∀ {board after : Board} {worker : Worker α} {told : List Event},
    ¬ worker.IsOpen → holds board worker told → holds after worker told

/-- The chronicle of a run goes on as it should. -/
theorem Sequencer.keeps_tells (accounted : ∀ command ∈ sequencer.steps, command.IsAccounted) :
    sequencer.Keeps fun board worker told =>
      worker.Tells sequencer.totalWork sequencer.steps board told where
  step := fun agenda outcome lives tells =>
    outcome.tells agenda accounted (fun isOpen => (lives isOpen).known) tells
  foreign := fun foreign tells => tells.of_foreign foreign
  ended := fun ended tells => tells.of_over ended _

variable {holds : Board → Worker α → List Event → Prop}

/-- What a run keeps is kept at every turn. -/
theorem Scene.Sound.kept_turn (sound : Scene.Sound sequencer past scene)
    (keeps : sequencer.Keeps holds) (acted : scene.act? act = some next)
    (found : scene.workers[run]? = some worker) (kept : holds scene.board worker told) :
    ∃ after, next.workers[run]? = some after ∧
      holds next.board after (told ++ toldOf run [⟨scene, act⟩]) := by
  obtain ⟨runId, first, view, followed, work, -⟩ := sound.follows found
  rcases Scene.amid_of_act? acted with
    ⟨runId, rfl, free, workers⟩ | ⟨other, reply, rfl⟩ | ⟨workers, -, amid, silent⟩
  · have inactive := ((Scene.isTaken_eq_false scene).mp free).1
    have ended : ¬ worker.IsOpen := by
      intro isOpen
      simp [(followed.current.mpr isOpen).2] at inactive
    refine ⟨worker, ?_, ?_⟩
    · rw [workers, List.getElem?_append_left (List.getElem?_eq_some_iff.mp found).1]
      exact found
    · rw [toldOf_of_silent rfl, List.append_nil]
      exact keeps.ended ended kept
  · obtain ⟨worker', board, after, found', stepped, rfl⟩ := Scene.exists_of_work acted
    by_cases same : other = run
    · subst same
      cases found.symm.trans found'
      obtain ⟨task, rest, agenda, -⟩ := Worker.step?_cases stepped
      have outcome := Worker.outcome_of_step? followed.isSteady agenda stepped
      have news : toldOf other [(⟨scene, .work other reply⟩ : Turn α)] =
          (task.event? scene.board).toList := by
        have event : (⟨scene, .work other reply⟩ : Turn α).event? = task.event? scene.board := by
          simp [Turn.event?, found, agenda]
        simp only [toldOf, Turn.isTold, List.filter_cons, beq_self_eq_true, if_true,
          List.filter_nil, List.filterMap_cons, event]
        cases task.event? scene.board <;> rfl
      refine ⟨after, ?_, ?_⟩
      · exact List.getElem?_set_self (List.getElem?_eq_some_iff.mp found).1
      · rw [news]
        exact keeps.step agenda outcome (followed.lives work) kept
    · have silent : (⟨scene, .work other reply⟩ : Turn α).deed? run = none := by
        simp [Turn.deed?, same]
      refine ⟨worker, (List.getElem?_set_ne same).trans found, ?_⟩
      rw [toldOf_of_silent silent, List.append_nil]
      by_cases current : scene.IsCurrent run
      · -- the worker of another run only publishes events
        have ended : ¬ scene.IsCurrent other := fun current' => same (by
          have first := current.1
          have second := current'.1
          omega)
        obtain ⟨_, event, board⟩ := sound.isIdle_of_over ended acted
        rw [board]
        exact keeps.foreign (scene.board.foreign_bus _) kept
      · exact keeps.ended (mt followed.current.mpr current) kept
  · refine ⟨worker, workers ▸ found, ?_⟩
    rw [toldOf_of_silent (silent run), List.append_nil]
    exact keeps.foreign amid.foreign kept

/-- What a request for a run that is not refused leads to. -/
theorem Scene.begun_of_execute (own : scene.sequencer = sequencer.withBoard scene.board)
    (free : scene.sequencer.isTaken = false) (acted : scene.act? (.execute runId) = some next) :
    next.workers[scene.workers.length]? = some (sequencer.worker runId) ∧
      next.board.work = WorkCounter.reset sequencer.totalWork ∧
      next.board.run = .running ∧ next.board.bus = scene.board.bus ∧ next.calls = scene.calls := by
  simp only [act?, Sequencer.beginRun, free] at acted
  cases acted
  rw [own]
  refine ⟨?_, rfl, rfl, rfl, rfl⟩
  rw [List.getElem?_append_right (Nat.le_refl _), Nat.sub_self]
  rfl

/-- What runs keep holds of every run of a play at any time. -/
theorem Scene.Plays.kept (plays : sequencer.scene.Plays past scene) (keeps : sequencer.Keeps holds)
    (begins : ∀ {board : Board} {runId : String},
      board.work = WorkCounter.reset sequencer.totalWork →
        holds board (sequencer.worker runId) [])
    (found : scene.workers[run]? = some worker) :
    holds scene.board worker (toldOf run past) := by
  induction plays generalizing run worker with
  | begin => cases found
  | @turn past halfway next act more acted ih =>
      rcases Nat.lt_or_ge run halfway.workers.length with old | new
      · have there := List.getElem?_eq_getElem old
        obtain ⟨after, found', kept⟩ := more.sound.kept_turn keeps acted there (ih there)
        cases found.symm.trans found'
        rwa [toldOf_append]
      · have unheard : toldOf run (past ++ [⟨halfway, act⟩]) = toldOf run [⟨halfway, act⟩] := by
          rw [toldOf_append, toldOf_of_deedsOf (more.sound.beyond run new), List.nil_append]
        have inBounds := (List.getElem?_eq_some_iff.mp found).1
        rcases Scene.amid_of_act? acted with
          ⟨runId, rfl, free, workers⟩ | ⟨other, reply, rfl⟩ | ⟨workers, -, amid, silent⟩
        · have latest : run = halfway.workers.length := by
            rw [workers, List.length_append, List.length_singleton] at inBounds
            omega
          obtain ⟨begun, work, -⟩ := Scene.begun_of_execute more.sound.own free acted
          subst latest
          cases found.symm.trans begun
          rw [unheard, toldOf_of_silent rfl]
          exact begins work
        · obtain ⟨_, _, _, _, _, rfl⟩ := Scene.exists_of_work acted
          rw [List.length_set] at inBounds
          omega
        · rw [workers] at inBounds
          omega

/-- From its beginning on a run tells its chronicle. -/
theorem Scene.Plays.tells (plays : sequencer.scene.Plays past scene)
    (later : scene.Plays future last)
    (accounted : ∀ command ∈ sequencer.steps, command.IsAccounted)
    (found : scene.workers[run]? = some worker)
    (tells : worker.Tells sequencer.totalWork sequencer.steps scene.board []) :
    ∃ after, last.workers[run]? = some after ∧
      after.Tells sequencer.totalWork sequencer.steps last.board (toldOf run future) := by
  induction later with
  | begin => exact ⟨worker, found, tells⟩
  | turn more acted ih =>
      obtain ⟨halfway, found', tells'⟩ := ih
      rw [toldOf_append]
      exact (plays.append more).sound.kept_turn (sequencer.keeps_tells accounted) acted found' tells'

end Told

/-! ## What is heard of a whole run -/

section Runs

variable [Scalar α] {sequence : Sequence} {pollInterval : Duration} {sequencer : Sequencer α}
variable {past future : List (Turn α)} {scene next last : Scene α} {runId : String}
variable {subscriber : Nat} {inbox : Array Event} {worker : Worker α}

/-- The steps of an accepted sequence have together the total work. -/
theorem Sequencer.unitsOf_steps
    (accepted : Sequencer.ofSequence sequence pollInterval = .ok sequencer) :
    Command.unitsOf sequencer.steps = sequencer.totalWork.toNat := by
  obtain ⟨-, summed, -⟩ := ofSequence_eq_ok accepted
  rw [Work.toNat_sum? summed, List.map_map]
  rfl

/-- What a subscriber hears of a run that comes to its end, if it was there before the run began and
stays, and every call says what it has done before anything else happens. It receives all events,
each of which belongs to this run, to a later one, or to one that was not through when this run
began. Those of this run that calls publish say by turns that the run is paused and resumed. Those
that its worker publishes are the chronicle of the run up to the state of its report, that state,
and the report itself, which is the one that the run returns. The units of work are told one after
another, out of the total. -/
theorem run_is_told_in_order
    (accepted : Sequencer.ofSequence sequence pollInterval = .ok sequencer)
    (plays : sequencer.scene.Plays past scene)
    (present : scene.board.bus.pending? subscriber = some inbox)
    (free : scene.sequencer.isTaken = false) (acted : scene.act? (.execute runId) = some next)
    (later : next.Plays future last)
    (atomic : ∀ turn ∈ (⟨scene, .execute runId⟩ : Turn α) :: future, turn.IsAtomic)
    (stays : ∀ turn ∈ future, turn.act ≠ .unsubscribe subscriber)
    (found : last.workers[scene.workers.length]? = some worker) (done : worker.agenda = []) :
    received subscriber future last = inbox.toList ++ future.filterMap Turn.event? ∧
      (∀ turn ∈ future, turn.event? ≠ none → ∃ run < last.workers.length,
        (turn.isTold run = true ∨ turn.isCalled run = true) ∧
          ∀ earlier, scene.workers[run]? = some earlier → earlier.agenda ≠ []) ∧
      (∃ count, calledOf scene.workers.length future = Event.pauses count) ∧
      ∃ report events, worker.report = some report ∧
        IsChronicle sequencer.totalWork sequencer.steps report.state events ∧
        toldOf scene.workers.length future =
          events ++ [Event.stateChanged report.state, .finished report] ∧
        ∃ count ≤ sequencer.totalWork.toNat, events.filterMap Event.progress? =
          (List.range' 1 count).map fun performed => (performed, sequencer.totalWork) := by
  obtain ⟨begun, work, running, bus, calls⟩ :=
    Scene.begun_of_execute plays.sound.own free acted
  have playsNext := plays.turn acted
  obtain ⟨compiled, -, made⟩ := Sequencer.ofSequence_eq_ok accepted
  have accounted : ∀ command ∈ sequencer.steps, command.IsAccounted :=
    Command.isAccounted_of_compileAll sequence.steps compiled
  have fresh : sequencer.board = {} := by rw [made]
  have onwards : ∀ turn ∈ future, turn.IsAtomic :=
    fun turn member => atomic turn (List.mem_cons_of_mem _ member)
  have quiet : next.IsQuiet := by
    intro state member
    rw [calls] at member
    obtain ⟨position, announces⟩ := List.mem_iff_getElem?.mp member
    obtain ⟨now, accesses⟩ := atomic _ List.mem_cons_self position state announces
    cases accesses
  refine ⟨later.received_eq (bus ▸ present) stays, ?_, ?_, ?_⟩
  · intro turn member publishes
    obtain ⟨run, bound, ⟨told, unfinished⟩ | ⟨called, latest⟩⟩ :=
      playsNext.exists_run_of_event fresh later onwards quiet turn member publishes
    · refine ⟨run, bound, .inl told, fun earlier there done => ?_⟩
      exact unfinished earlier ((Scene.Plays.turn .begin acted).done_stays there done) done
    · have one := (List.getElem?_eq_some_iff.mp begun).1
      refine ⟨run, bound, .inr called, fun earlier there => ?_⟩
      have before := (List.getElem?_eq_some_iff.mp there).1
      omega
  · obtain ⟨count, pauses, -⟩ :=
      playsNext.exists_pauses later begun onwards (.told quiet running)
    exact ⟨count, pauses⟩
  · obtain ⟨after, found', tells⟩ := playsNext.tells later accounted begun
      (Worker.tells_ofSteps work ..)
    cases found.symm.trans found'
    obtain ⟨report, events, kept, whole, told⟩ := tells.whole done
    have units := Sequencer.unitsOf_steps accepted
    obtain ⟨count, bound, progress⟩ := whole.progress (units ▸ sequencer.totalWork.toNat_lt)
    exact ⟨report, events, kept, whole, told, count, units ▸ bound, progress⟩

/-- A run of two notes that is paused and resumed before the first one. -/
theorem paused_notes_are_told_in_order :
    ∃ (sequencer : Sequencer Float) (future : List (Turn Float)) (last : Scene Float)
      (report : RunReport) (events : List Event),
      calledOf 0 future = [.stateChanged .paused, .stateChanged .running] ∧
        report.state = .finished ∧
        IsChronicle sequencer.totalWork sequencer.steps .finished events ∧
        toldOf 0 future = events ++ [Event.stateChanged .finished, .finished report] ∧
        received 0 future last = future.filterMap Turn.event? := by
  have rehearsed : Scene.rehearseAround (α := Float)
      ⟨none, [.comment "first", .comment "second"]⟩ ⟨2000000⟩ [.subscribe] (.execute "run")
      ([Act.work 0 none, .invoke .pause, .access 0 0, .access 0 0, .work 0 none, .invoke .resume,
        .access 0 0, .access 0 0] ++ Scene.workActs 0 [(.told 0, 27), (.told 0, 3)])
      (fun scene _ future last =>
        decide (scene.board.bus.pending? 0 = some #[]) && !scene.sequencer.isTaken &&
          scene.calls.isEmpty && future.all Turn.isAtomic &&
          future.all (fun turn => match turn.act with
            | .unsubscribe _ => false
            | _ => true) &&
          scene.workers.isEmpty && last.workers.length == 1 &&
          last.workers.all (fun worker => worker.agenda.isEmpty &&
            worker.report.all fun report => decide (report.state = .finished)) &&
          decide (calledOf 0 future = [.stateChanged .paused, .stateChanged .running])) = true := by
    with_unfolding_all decide
  obtain ⟨sequencer, past, scene, next, future, last, accepted, plays, acted, later, test⟩ :=
    Scene.exists_of_rehearseAround rehearsed
  simp only [Bool.and_eq_true, List.all_eq_true, decide_eq_true_eq, Bool.not_eq_true',
    List.isEmpty_iff] at test
  obtain ⟨⟨⟨⟨⟨⟨⟨⟨present, free⟩, calls⟩, atomic⟩, stays⟩, unstaffed⟩, one⟩, done⟩, called⟩ := test
  have none : scene.workers.length = 0 := by rw [unstaffed]; rfl
  have length : last.workers.length = 1 := eq_of_beq one
  have found : last.workers[0]? = some last.workers[0] := List.getElem?_eq_getElem _
  obtain ⟨ended, finishes⟩ := done _ (List.mem_of_getElem? found)
  have atAll : ∀ turn ∈ (⟨scene, .execute "run"⟩ : Turn Float) :: future, turn.IsAtomic := by
    intro turn member
    rcases List.mem_cons.mp member with rfl | member
    · exact Turn.isAtomic_eq_true (by simp [Turn.isAtomic, calls])
    · exact Turn.isAtomic_eq_true (atomic turn member)
  have remains : ∀ turn ∈ future, turn.act ≠ .unsubscribe 0 := by
    intro turn member leaves
    have stays := stays turn member
    rw [leaves] at stays
    cases stays
  obtain ⟨heard, -, -, report, events, kept, whole, told, -⟩ :=
    run_is_told_in_order accepted plays present free acted later atAll remains
      (none.symm ▸ found) ended
  rw [none] at told
  have finished : report.state = .finished := by
    simpa [kept] using finishes
  rw [finished] at whole told
  exact ⟨sequencer, future, last, report, events, called, finished, whole, told, heard⟩

end Runs

end Scan
