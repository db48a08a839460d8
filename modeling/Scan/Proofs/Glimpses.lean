import Scan.Proofs.Forgetting

/-!
# Glimpses of a run

A call for the progress looks at the board several times, and others may act in between. What it
comes back with is pieced together from boards that it has seen one after another. If nothing of it
changes in the meantime, and so whenever no run is in progress, it is the progress at one moment.
-/

namespace Scan

variable {α : Type}

/-! ## Looking again and again -/

/-- The boards that a call for the progress sees at its accesses. -/
structure Glimpses where
  step : Board
  run : Board
  performed : Board
  total : Board
  share : Board
  innermost : Board
  monitors : Board

namespace Glimpses

/-- The boards in the order in which they are seen. A monitor is only looked at if there is a step in
progress. -/
def boards (glimpses : Glimpses) : List Board :=
  [glimpses.step, glimpses.run, glimpses.performed, glimpses.total, glimpses.share,
    glimpses.innermost] ++ (glimpses.innermost.innermost?.map fun _ => glimpses.monitors).toList

/-- The view of the run that is pieced together. -/
def progress (glimpses : Glimpses) (totalWork : UInt64) (now : Instant) : Progress where
  state := glimpses.run.run
  performed := glimpses.performed.work.performed
  total := totalWork
  fraction := WorkCounter.share glimpses.share.work.performed glimpses.total.work.total
  currentStep := if 0 < glimpses.step.currentStep then some glimpses.step.currentStep else none
  currentStatus := glimpses.innermost.innermost?.map fun id =>
    (glimpses.monitors.monitor id).describe now

end Glimpses

/-- The view of the run that a call comes back with. -/
def CallResult.progress? : CallResult → Option Progress
  | .progress found => some found
  | _ => none

namespace Call

/-- What a call comes back with when its accesses find some boards one after another. -/
def answer? (totalWork : UInt64) : Call → List (Board × Instant) → Option CallResult
  | _, [] => none
  | call, (board, now) :: rest =>
      match (call.step totalWork now board).2 with
      | .more next => next.answer? totalWork rest
      | .result result => some result

variable {totalWork : UInt64} {accesses : List (Board × Instant)}
variable {result : CallResult}

end Call

/-! ## Calls in progress -/

/-- What is left of a call in progress after the access that it makes at a turn. -/
def Turn.rest? (turn : Turn α) (position : Nat) : Option Call.Rest :=
  match turn.act with
  | .access other now =>
      if other = position then
        turn.scene.calls[position]?.map fun call =>
          (call.step turn.scene.sequencer.totalWork now turn.scene.board).2
      else none
  | _ => none

/-- Where a call in progress is found after a turn. One that comes back makes room for the calls
behind it. -/
def Turn.place (turn : Turn α) (position : Nat) : Nat :=
  match turn.act with
  | .access other _ =>
      match turn.rest? other with
      | some (.result _) => if other < position then position - 1 else position
      | _ => position
  | _ => position

/-- What a call in progress comes back with in some turns, if it does. -/
def answer? (position : Nat) : List (Turn α) → Option CallResult
  | [] => none
  | turn :: rest =>
      match turn.rest? position with
      | some (.result result) => some result
      | _ => answer? (turn.place position) rest

namespace Scene

variable [Scalar α] {scene next last : Scene α} {act : Act α} {future : List (Turn α)}
variable {position : Nat} {call : Call} {result : CallResult}

/-- The first turn of a play begins where the play begins, and the others go on from there. -/
theorem Plays.exists_of_cons {turn : Turn α} (plays : scene.Plays (turn :: future) last) :
    turn.scene = scene ∧ ∃ next, scene.act? turn.act = some next ∧ next.Plays future last := by
  induction future using List.reverseRecOn generalizing last with
  | nil =>
      rw [← List.nil_append [turn]] at plays
      obtain ⟨begins, acted⟩ := plays.exists_of_concat
      cases begins.eq_of_nil
      exact ⟨rfl, last, acted, .begin⟩
  | append_singleton future final ih =>
      rw [← List.cons_append] at plays
      obtain ⟨plays, ends⟩ := plays.exists_of_concat
      obtain ⟨same, next, acted, more⟩ := ih plays
      exact ⟨same, next, acted, .turn more ends⟩

/-- A call that makes no access at a turn waits for another one. -/
theorem calls_of_act? (acted : scene.act? act = some next)
    (found : scene.calls[position]? = some call)
    (waits : (⟨scene, act⟩ : Turn α).rest? position = none) :
    next.calls[(⟨scene, act⟩ : Turn α).place position]? = some call := by
  cases act with
  | access other now =>
      have apart : other ≠ position := by
        rintro rfl
        simp [Turn.rest?, found] at waits
      simp only [act?] at acted
      cases present : scene.calls[other]? with
      | none => simp [present] at acted
      | some mover =>
          simp only [present] at acted
          simp only [Turn.place, Turn.rest?, if_true, present, Option.map_some]
          split at acted <;> rename_i stepped <;> rw [stepped] <;> cases acted
          · exact (List.getElem?_set_ne apart).trans found
          · simp only
            split
            · rename_i before
              rw [List.getElem?_eraseIdx_of_ge (by omega), Nat.sub_add_cancel (by omega), found]
            · rw [List.getElem?_eraseIdx_of_lt (by omega), found]
  | invoke entry =>
      simp only [act?] at acted
      split at acted <;> cases acted
      exact (List.getElem?_append_left (List.getElem?_eq_some_iff.mp found).1).trans found
  | work run reply =>
      obtain ⟨_, _, _, _, _, rfl⟩ := exists_of_work acted
      exact found
  | execute runId =>
      simp only [act?, Sequencer.beginRun] at acted
      cases taken : scene.sequencer.isTaken <;> simp only [taken] at acted <;> cases acted <;>
        exact found
  | simulate =>
      simp only [act?, Sequencer.beginSimulation] at acted
      cases taken : scene.sequencer.isTaken <;> simp only [taken] at acted <;> cases acted <;>
        exact found
  | conclude ended =>
      simp only [act?] at acted
      split at acted <;> cases acted
      exact found
  | subscribe | unsubscribe | collect =>
      cases acted
      exact found

/-- A call that makes an access at a turn is done or goes on in its place. -/
theorem exists_of_rest? (acted : scene.act? act = some next)
    (found : scene.calls[position]? = some call) {rest : Call.Rest}
    (makes : (⟨scene, act⟩ : Turn α).rest? position = some rest) :
    ∃ now, (call.step scene.sequencer.totalWork now scene.board).2 = rest ∧
      ∀ other, rest = .more other →
        next.calls[(⟨scene, act⟩ : Turn α).place position]? = some other := by
  cases act with
  | access mover now =>
      simp only [Turn.rest?] at makes
      split at makes
      · rename_i own
        subst own
        rw [found, Option.map_some, Option.some.injEq] at makes
        refine ⟨now, makes, ?_⟩
        rintro other rfl
        simp only [act?, found] at acted
        simp only [Turn.place, Turn.rest?, if_true, found, Option.map_some]
        split at acted <;> rename_i stepped <;> simp only [stepped] at makes ⊢ <;> cases makes
        cases acted
        exact List.getElem?_set_self (List.getElem?_eq_some_iff.mp found).1
      · cases makes
  | _ => cases makes

end Scene

/-! ## Leaving the board -/

/-- Whether a task comes after all steps have been taken off. -/
def Task.isParting : Task α → Bool
  | .report | .setState _ | .announce _ => true
  | _ => false

namespace Worker

/-- A worker will take all steps off before it writes its report, or it has done so. -/
inductive Departs (board : Board) : List (Task α) → Prop where
  | busy (front : List (Task α)) : Departs board (front ++ [.clearActive, .report])
  | gone {agenda : List (Task α)} (nobody : board.active = [])
      (parting : ∀ task ∈ agenda, task.isParting = true) : Departs board agenda

variable {board after : Board} {agenda : List (Task α)}

theorem Departs.of_active_eq (departs : Departs board agenda) (same : after.active = board.active) :
    Departs after agenda := by
  cases departs with
  | busy front => exact .busy front
  | gone nobody parting => exact .gone (same.trans nobody) parting

theorem departs_ofSteps (board : Board) (steps : List (Command α)) (pollInterval : Duration)
    (runId : String) (name : Option String) (totalWork : UInt64) :
    Departs board (ofSteps steps pollInterval runId name totalWork).agenda :=
  .busy [.announce (.stateChanged .running), .prepare steps, .clearStep]

theorem Departs.unwind (departs : Departs board agenda) : Departs board (unwind agenda) := by
  cases departs with
  | busy front =>
      rw [unwind_append_cons rfl]
      exact .busy (Worker.unwind front)
  | gone nobody parting =>
      exact .gone nobody fun task member => parting task ((unwind_suffix _).mem member)

/-- A worker that is through with its run has left the board. -/
theorem Departs.active_eq_nil {worker : Worker α} (departs : Departs board worker.agenda)
    (ended : ¬ worker.IsOpen) : board.active = [] := by
  generalize rest : worker.agenda = agenda at departs
  cases departs with
  | busy front => exact absurd ⟨.report, by simp [rest], rfl⟩ ended
  | gone nobody => exact nobody

variable [Scalar α] {worker next : Worker α} {task : Task α} {rest more : List (Task α)}
variable {reply : Option (Reply α)}

/-- Nobody comes back to the board who has left it. -/
theorem parting_of_spawns (parting : task.isParting = true)
    (spawns : task.Spawns board worker reply after more) :
    after.active = board.active ∧ ∀ next ∈ more, next.isParting = true := by
  cases spawns with
  | report => exact ⟨rfl, by simp [Task.isParting]⟩
  | setState | announce => exact ⟨rfl, List.forall_mem_nil _⟩
  | _ => cases parting

theorem Departs.of_spawns (departs : Departs board (task :: rest))
    (spawns : task.Spawns board worker reply after more) : Departs after (more ++ rest) := by
  generalize whole : task :: rest = agenda at departs
  cases departs with
  | busy front =>
      cases front with
      | nil =>
          obtain ⟨rfl, rfl⟩ := List.cons.inj whole
          cases spawns
          exact .gone rfl (by simp [Task.isParting])
      | cons first front =>
          rw [List.cons_append] at whole
          obtain ⟨rfl, rfl⟩ := List.cons.inj whole
          rw [← List.append_assoc]
          exact .busy (more ++ front)
  | gone nobody parting =>
      subst whole
      obtain ⟨own, others⟩ := List.forall_mem_cons.mp parting
      obtain ⟨same, further⟩ := parting_of_spawns own spawns
      exact .gone (same.trans nobody) (List.forall_mem_append.mpr ⟨further, others⟩)

omit [Scalar α] in
theorem Departs.of_fails {error : ScanError} (departs : Departs board (task :: rest))
    (fails : task.Fails board reply error) : Departs board rest := by
  generalize whole : task :: rest = agenda at departs
  cases departs with
  | busy front =>
      cases front with
      | nil =>
          obtain ⟨rfl, -⟩ := List.cons.inj whole
          cases fails
      | cons first front =>
          obtain ⟨-, rfl⟩ := List.cons.inj whole
          exact .busy front
  | gone nobody parting =>
      subst whole
      exact .gone nobody (List.forall_mem_cons.mp parting).2

/-- A worker leaves the board whatever comes of its steps. -/
theorem Outcome.departs (outcome : Outcome board worker task rest reply after next)
    (departs : Departs board (task :: rest)) : Departs after next.agenda := by
  cases outcome with
  | sound _ spawns => exact departs.of_spawns spawns
  | broken _ fails => exact (departs.of_fails fails).unwind
  | cleaning _ _ spawns => exact (departs.of_spawns spawns).unwind

end Worker

namespace Scene

variable {scene next : Scene α} {act : Act α}

/-- A scene in which the steps in progress are those of the last run, which will take them off. -/
structure IsTidy (scene : Scene α) : Prop where
  bare : scene.workers = [] → scene.board.active = []
  departs : ∀ {run worker}, scene.workers[run]? = some worker → run + 1 = scene.workers.length →
    Worker.Departs scene.board worker.agenda

theorem IsTidy.of_same (tidy : scene.IsTidy) (workers : next.workers = scene.workers)
    (active : next.board.active = scene.board.active) : next.IsTidy where
  bare := fun none => active.trans (tidy.bare (workers ▸ none))
  departs := fun found last => by
    rw [workers] at found last
    exact (tidy.departs found last).of_active_eq active

variable [Scalar α] {sequencer : Sequencer α} {past future : List (Turn α)} {last : Scene α}

theorem IsTidy.turn (tidy : scene.IsTidy) (sound : Sound sequencer past scene)
    (acted : scene.act? act = some next) : next.IsTidy := by
  rcases shown_of_act? acted with ⟨runId, workers, -⟩ | ⟨run, reply, rfl⟩ | ⟨workers, -, active⟩
  · refine ⟨fun none => absurd (workers.symm.trans none) (by simp), fun found last => ?_⟩
    simp only [workers, List.length_append, List.length_singleton,
      Nat.add_right_cancel_iff] at last
    subst last
    rw [workers, List.getElem?_concat_length] at found
    cases found
    exact Worker.departs_ofSteps ..
  · obtain ⟨worker, board, after, found, stepped, rfl⟩ := exists_of_work acted
    obtain ⟨_, _, _, followed, -⟩ := sound.follows found
    obtain ⟨inBounds, -⟩ := List.getElem?_eq_some_iff.mp found
    refine ⟨fun none => ?_, fun {run' worker'} found' last => ?_⟩
    · simp only [List.set_eq_nil_iff] at none
      simp [none] at inBounds
    · simp only [List.length_set] at found' last
      by_cases same : run = run'
      · subst same
        rw [List.getElem?_set_self inBounds] at found'
        cases found'
        obtain ⟨task, rest, agenda, -⟩ := Worker.step?_cases stepped
        have departs := tidy.departs found last
        rw [agenda] at departs
        exact (Worker.outcome_of_step? followed.isSteady agenda stepped).departs departs
      · -- another run has begun since, so this one only publishes events
        rw [List.getElem?_set_ne same] at found'
        have ended : ¬ worker.IsOpen := fun isOpen => by
          have current := (followed.current.mpr isOpen).1
          omega
        obtain ⟨_, _, _, _, rfl, -⟩ := followed.step_of_over ended stepped
        exact (tidy.departs found' last).of_active_eq rfl
  · exact tidy.of_same workers active

theorem Plays.isTidy (plays : sequencer.scene.Plays past scene) (fresh : sequencer.board = {}) :
    scene.IsTidy := by
  induction plays with
  | begin =>
      refine ⟨fun _ => ?_, fun found => by cases found⟩
      rw [Sequencer.scene, board, fresh]
  | turn plays acted ih => exact ih.turn plays.sound acted

/-- The worker of a run that is not in progress is through with it. -/
theorem Sound.not_isOpen_of_inactive (sound : Sound sequencer past scene)
    (inactive : scene.board.run.isActive = false) {worker : Worker α}
    (member : worker ∈ scene.workers) : ¬ worker.IsOpen := by
  obtain ⟨run, found⟩ := List.getElem?_of_mem member
  obtain ⟨_, _, _, followed, -⟩ := sound.follows found
  intro isOpen
  simp [(followed.current.mpr isOpen).2] at inactive

/-- As long as no run is in progress there is no step in progress, and none is shown. -/
theorem Plays.nothing_shown (plays : sequencer.scene.Plays past scene)
    (fresh : sequencer.board = {}) (inactive : scene.board.run.isActive = false) :
    scene.board.currentStep = 0 ∧ scene.board.active = [] := by
  have ended : ∀ worker ∈ scene.workers, ¬ worker.IsOpen :=
    fun _ member => plays.sound.not_isOpen_of_inactive inactive member
  constructor
  · refine (plays.isSwept fresh).shown.resolve_right ?_
    rintro ⟨worker, member, clears⟩
    obtain ⟨run, found⟩ := List.getElem?_of_mem member
    obtain ⟨_, _, _, followed, -⟩ := plays.sound.follows found
    obtain ⟨report, -, suffix⟩ := followed.stage.exists_report (ended worker member)
    obtain ⟨_, other⟩ := Worker.exists_event_of_suffix suffix clears
    cases other
  · have tidy := plays.isTidy fresh
    rcases List.eq_nil_or_concat scene.workers with none | ⟨earlier, worker, whole⟩
    · exact tidy.bare none
    · rw [List.concat_eq_append] at whole
      have found : scene.workers[earlier.length]? = some worker := by
        rw [whole, List.getElem?_concat_length]
      exact (tidy.departs found (by simp [whole])).active_eq_nil
        (ended worker (List.mem_of_getElem? found))

/-- As long as no run is in progress nothing is counted, and the last run stays as it ended. -/
theorem Sound.still (sound : Sound sequencer past scene) (acted : scene.act? act = some next)
    (inactive : scene.board.run.isActive = false) (remains : next.board.run.isActive = false) :
    next.board.run = scene.board.run ∧ next.board.work = scene.board.work := by
  cases change_of_act? acted with
  | begins _ _ _ claimed =>
      rw [board, claimed] at remains
      cases remains
  | works _ found stepped changed =>
      obtain ⟨_, _, _, followed, -⟩ := sound.follows found
      have ended := sound.not_isOpen_of_inactive inactive (List.mem_of_getElem? found)
      obtain ⟨_, _, _, _, rfl, -⟩ := followed.step_of_over ended stepped
      rw [changed]
      exact ⟨rfl, rfl⟩
  | others board foreign _ claimed =>
      have now : next.board = board := by rw [Scene.board, claimed]; rfl
      rw [now]
      refine ⟨foreign.run.resolve_right ?_, foreign.work⟩
      rintro ⟨active, -⟩
      simp [active] at inactive

/-- The scene of a turn is the end of a play. -/
theorem Plays.exists_of_mem {turn : Turn α} (later : scene.Plays future last)
    (member : turn ∈ future) : ∃ first, scene.Plays first turn.scene := by
  induction later with
  | begin => cases member
  | @turn first _ _ _ more _ ih =>
      rcases List.mem_append.mp member with old | new
      · exact ih old
      · cases List.mem_singleton.mp new
        exact ⟨first, more⟩

/-- As long as no run is in progress the last run stays as it ended. -/
theorem Plays.still (plays : sequencer.scene.Plays past scene) (later : scene.Plays future last)
    (inactive : ∀ turn ∈ future, turn.scene.board.run.isActive = false) :
    (∀ turn ∈ future, turn.scene.board.run = scene.board.run ∧
        turn.scene.board.work = scene.board.work) ∧
      (last.board.run.isActive = false →
        last.board.run = scene.board.run ∧ last.board.work = scene.board.work) := by
  induction later with
  | begin => exact ⟨List.forall_mem_nil _, fun _ => ⟨rfl, rfl⟩⟩
  | @turn first halfway next act more acted ih =>
      obtain ⟨before, own⟩ := List.forall_mem_append.mp inactive
      obtain ⟨same, here⟩ := ih before
      have now := own _ (List.mem_singleton.mpr rfl)
      obtain ⟨run, work⟩ := here now
      refine ⟨List.forall_mem_append.mpr ⟨same, ?_⟩, fun remains => ?_⟩
      · rw [List.forall_mem_singleton]
        exact ⟨run, work⟩
      · obtain ⟨run', work'⟩ := (plays.append more).sound.still acted now remains
        exact ⟨run'.trans run, work'.trans work⟩

/-! ## Views of the run -/

variable {position : Nat} {result : CallResult}

end Scene

end Scan
