import Mathlib.Data.List.Induction
import Scan.Proofs.Abort

/-!
# How an aborted run ends

Once an abort is requested a worker does what it does up to the next safe point, and after that it
only cleans up. Every step uses up some of its effort, so the run comes to its end. Unless something
else went wrong before, it ends as aborted if the worker comes to a safe point at all, which it does
at the latest before the next top-level step.
-/

namespace Scan

variable {α : Type}

/-! ## Effort -/

/-- How many steps it takes to clean up a task. -/
def Task.tidying : Task α → Nat
  | .report => 4
  | task => task.cleansUp.toNat

/-- A bound on the steps that a task and the tasks that it leads to take, up to the first safe point
among them and with what is to be cleaned up after it. -/
def Task.effort : Task α → Nat
  | .armDelay .. | .restUntil .. | .restPoll .. | .armPoll _ | .countUnit .. | .nest _ => 2
  | .checkDeadline .. | .checkLimit .. | .settle .. | .steps .. => 3
  | .probe .. | .iterate .. | .report => 4
  | .prepare _ => 5
  | .baseline .. => 7
  | .resolve .. => 8
  | .enter .. => 13
  | .start .. => 14
  | .announceStart .. => 16
  | _ => 1

theorem Task.tidying_le_effort (task : Task α) : task.tidying ≤ task.effort := by
  cases task <;> simp [tidying, effort, cleansUp]

theorem Task.one_le_effort (task : Task α) : 1 ≤ task.effort := by
  cases task <;> simp [effort]

namespace Worker

/-- How many steps it takes to clean up the tasks of an agenda. -/
def tidying (agenda : List (Task α)) : Nat :=
  (agenda.map Task.tidying).sum

/-- A bound on the steps that a worker takes after an abort. -/
def effort : List (Task α) → Nat
  | [] => 0
  | task :: rest => if task.isSafePoint then 1 + tidying rest else task.effort + effort rest

variable {agenda rest : List (Task α)} {task : Task α}

@[simp] theorem tidying_nil : tidying ([] : List (Task α)) = 0 := rfl

@[simp] theorem tidying_cons : tidying (task :: rest) = task.tidying + tidying rest := by
  simp [tidying]

@[simp] theorem tidying_append (front rest : List (Task α)) :
    tidying (front ++ rest) = tidying front + tidying rest := by
  simp [tidying]

@[simp] theorem tidying_unwind (agenda : List (Task α)) :
    tidying (unwind agenda) = tidying agenda := by
  induction agenda with
  | nil => rfl
  | cons task rest ih =>
      cases cleans : task.cleansUp
      · have nothing : task.tidying = 0 := by
          cases task <;> first | rfl | exact absurd cleans.symm Bool.false_ne_true
        rw [unwind_cons_of_not_cleansUp cleans, ih, tidying_cons, nothing, Nat.zero_add]
      · rw [unwind_cons_of_cleansUp cleans]

/-- What is to be cleaned up is a part of the effort. -/
theorem tidying_le_effort (agenda : List (Task α)) : tidying agenda ≤ effort agenda := by
  induction agenda with
  | nil => exact Nat.le_refl 0
  | cons task rest ih =>
      rw [tidying_cons, effort]
      split
      · have small : task.tidying ≤ 1 := by
          cases task <;> simp_all [Task.tidying, Task.cleansUp, Task.isSafePoint]
        omega
      · have own : task.tidying ≤ task.effort := task.tidying_le_effort
        omega

theorem effort_append_le (front rest : List (Task α)) :
    effort (front ++ rest) ≤ effort front + effort rest := by
  induction front with
  | nil => simp
  | cons task front ih =>
      simp only [List.cons_append, effort, tidying_append]
      have behind := tidying_le_effort rest
      split <;> omega

/-- Nested steps come to a safe point at once. -/
theorem effort_nestedTasks_le (commands : List (Nat × Command α)) (rest : List (Task α)) :
    effort (nestedTasks commands ++ rest) ≤ 1 + effort rest := by
  have none : tidying (nestedTasks commands) = 0 := by
    induction commands with
    | nil => rfl
    | cons pair commands ih =>
        rw [nestedTasks_cons, tidying_cons, tidying_cons, ih]
        rfl
  cases commands with
  | nil => exact Nat.le_add_left _ _
  | cons pair commands =>
      obtain ⟨id, command⟩ := pair
      have behind := tidying_le_effort rest
      rw [nestedTasks_cons, tidying_cons, tidying_cons] at none
      simp only [nestedTasks_cons, List.cons_append, effort, Task.isSafePoint, if_true,
        tidying_cons, tidying_append]
      omega

theorem effort_writeTasks_le (id : Nat) (channel : String) (completion : Completion α)
    (value : α) : effort (writeTasks id channel completion value) ≤ 7 := by
  unfold writeTasks
  split <;> simp [pollTasks, effort, Task.isSafePoint, Task.effort]

theorem effort_purposeTasks_le (id : Nat) (value : α) (purpose : Purpose α) :
    effort (purposeTasks id value purpose) ≤ 7 := by
  cases purpose with
  | assign => exact effort_writeTasks_le ..
  | await condition =>
      simp only [purposeTasks]
      split <;> simp [awaitTasks, pollTasks, effort, Task.isSafePoint, Task.effort]

theorem effort_iterationTasks_le [Scalar α] (id : Nat) (sweep : Sweep α)
    (body : List (Command α)) (iteration : Nat) :
    effort (iterationTasks id sweep body iteration) ≤ 3 := by
  unfold iterationTasks writeTasks
  split <;> simp [pollTasks, effort, Task.isSafePoint, Task.tidying, Task.cleansUp]

end Worker

section Steps

variable [Scalar α] {board after : Board} {worker next : Worker α} {task : Task α}
variable {rest more : List (Task α)} {reply : Option (Reply α)}

/-- A task that succeeds away from safe points takes more effort than the tasks in its place. -/
theorem Task.effort_of_spawns (spawns : task.Spawns board worker reply after more)
    (goesOn : task.isSafePoint = false) : 1 + Worker.effort more ≤ task.effort := by
  cases spawns with
  | safePoint | heedAbort => cases goesOn
  | literal id value purpose | evaluated id text purpose value =>
      have small := Worker.effort_purposeTasks_le id value purpose
      simp only [effort]
      omega
  | enter id command =>
      cases command with
      | group description children work =>
          have small := Worker.effort_nestedTasks_le (Board.numbered (id + 1) children)
            [.settle id (.group description children work), .leave]
          have behind : Worker.effort [.settle id (.group description children work), .leave] = 4 :=
            rfl
          simp only [Worker.commandTasks, effort]
          omega
      | delay | set | wait | comment | loop =>
          simp [Worker.commandTasks, Worker.effort, isSafePoint, effort]
  | nest body =>
      have small :=
        Worker.effort_nestedTasks_le (Board.numbered board.monitors.size body) ([] : List (Task α))
      rw [List.append_nil] at small
      simp only [Worker.effort] at small
      simp only [effort]
      omega
  | round id sweep body iteration =>
      have small := Worker.effort_iterationTasks_le id sweep body iteration
      simp only [effort]
      omega
  | steps step remaining =>
      cases remaining <;>
        simp [Worker.stepTasks, Worker.effort, isSafePoint, effort, tidying, cleansUp]
  | _ =>
      simp [Worker.effort, isSafePoint, effort, tidying, cleansUp, Worker.awaitTasks,
        Worker.pollTasks]

/-- A task that cleans up takes more tidying than the tasks in its place. -/
theorem Task.tidying_of_spawns (spawns : task.Spawns board worker reply after more)
    (failed : worker.failure.isSome = true) (cleans : task.cleansUp = true) :
    1 + Worker.tidying more ≤ task.tidying := by
  cases spawns with
  | settleLeaf id command sound => simp [sound] at failed
  | _ => first
    | exact absurd cleans Bool.false_ne_true
    | exact Nat.le_refl _

end Steps

/-- A bound on the steps that a worker still takes once an abort is requested. -/
def Worker.remaining (worker : Worker α) : Nat :=
  if worker.failure.isSome then tidying worker.agenda else effort worker.agenda

theorem Worker.remaining_of_sound {worker : Worker α} (sound : worker.failure = none) :
    worker.remaining = effort worker.agenda := by
  simp [remaining, sound]

theorem Worker.remaining_of_failed {worker : Worker α} (failed : worker.failure.isSome = true) :
    worker.remaining = tidying worker.agenda := by
  simp [remaining, failed]

/-! ## Lives after an abort -/

/-- Whether a deed shows that something went wrong around the worker: a call failed, or the time
limit of a wait is over. -/
def Deed.isBroken (deed : Deed α) : Bool :=
  match deed.reply, deed.task with
  | some (.evaluated (.error _)), _ | some (.found (.error _)), _
  | some (.wrote (.error _)), _ => true
  | some (.told now), .checkLimit _ since limit => decide (limit.nanoseconds ≤ now - since)
  | _, _ => false

/-- Whether a worker comes to a safe point in some deeds. -/
def meetsSafePoint (past : List (Deed α)) : Bool :=
  past.any fun deed => deed.task.isSafePoint

@[simp] theorem meetsSafePoint_concat (past : List (Deed α)) (deed : Deed α) :
    meetsSafePoint (past ++ [deed]) = (meetsSafePoint past || deed.task.isSafePoint) := by
  simp [meetsSafePoint]

section Lives

variable [Scalar α] {others : Board → Board → Prop} {board now : Board}
variable {worker current : Worker α} {past : List (Deed α)}

/-- Every step after an abort uses up some of what remains. -/
theorem Life.length_add_remaining_le (life : Life others board worker past now current)
    (steady : worker.IsSteady)
    (keeps : ∀ {now after : Board}, others now after →
      now.control.aborted = true → after.control.aborted = true)
    (aborted : board.control.aborted = true) :
    past.length + current.remaining ≤ worker.remaining := by
  induction life with
  | begin => simp
  | wait _ _ ih => exact ih
  | @work past now after _ _ task rest reply life agenda stepped ih =>
      rw [List.length_append, List.length_singleton]
      cases Worker.outcome_of_step? (life.isSteady steady) agenda stepped with
      | @sound _ more sound spawns =>
          have goesOn := Task.isSafePoint_of_spawns spawns (life.aborted steady keeps aborted)
          have used := Task.effort_of_spawns spawns goesOn
          have joined := Worker.effort_append_le more rest
          rw [Worker.remaining_of_sound sound, agenda, Worker.effort, goesOn] at ih
          rw [Worker.remaining_of_sound (by simp [sound]), Worker.agenda_withAgenda]
          simp only [Bool.false_eq_true, if_false] at ih
          omega
      | broken sound fails =>
          have behind := Worker.tidying_le_effort rest
          have own := task.one_le_effort
          rw [Worker.remaining_of_sound sound, agenda, Worker.effort] at ih
          rw [Worker.remaining_of_failed rfl, Worker.tidying_unwind]
          split at ih <;> omega
      | cleaning failed cleans spawns =>
          have used := Task.tidying_of_spawns spawns failed cleans
          rw [Worker.remaining_of_failed failed, agenda, Worker.tidying_cons] at ih
          rw [Worker.remaining_of_failed (by simpa using failed), Worker.agenda_withAgenda,
            Worker.tidying_unwind, Worker.tidying_append]
          omega

omit [Scalar α] in
/-- If nothing goes wrong around it, a task that fails after an abort is a safe point. -/
theorem Task.eq_interrupted_of_fails {task : Task α} {rest : List (Task α)}
    {reply : Option (Reply α)} {error : ScanError} (fails : task.Fails now reply error)
    (numbered : current.IsNumbered now) (agenda : current.agenda = task :: rest)
    (smooth : Deed.isBroken ⟨task, reply⟩ = false) :
    error = .interrupted ∧ task.isSafePoint = true := by
  cases fails with
  | safePoint | heedAbort => exact ⟨rfl, rfl⟩
  | refused id command used => simp [numbered.canAdvance agenda] at used
  | timeout poll since limit now expired => simp [Deed.isBroken, expired] at smooth
  | evaluated | baseline | write | probe => simp [Deed.isBroken] at smooth

/-- If nothing else goes wrong, a worker is interrupted after an abort as soon as it comes to a safe
point, and does not fail before. -/
theorem Life.failure_after_abort (life : Life others board worker past now current)
    (steady : worker.IsSteady) (numbered : worker.IsNumbered board)
    (keeps : ∀ {now after : Board}, others now after → now.Foreign after)
    (aborted : board.control.aborted = true) (sound : worker.failure = none)
    (smooth : ∀ deed ∈ past, deed.isBroken = false) :
    current.failure = if meetsSafePoint past then some .interrupted else none := by
  induction life with
  | begin => exact sound
  | wait _ _ ih => exact ih smooth
  | @work past now after _ _ task rest reply life agenda stepped ih =>
      have before := ih fun deed member => smooth deed (List.mem_append_left _ member)
      have own := smooth ⟨task, reply⟩ (List.mem_append_right _ (List.mem_singleton.mpr rfl))
      rw [meetsSafePoint_concat]
      cases Worker.outcome_of_step? (life.isSteady steady) agenda stepped with
      | sound none spawns =>
          have goesOn := Task.isSafePoint_of_spawns spawns
            (life.aborted steady (fun other => (keeps other).aborted) aborted)
          rw [goesOn, Bool.or_false, ← before]
          simp
      | broken none fails =>
          obtain ⟨rfl, stops⟩ := Task.eq_interrupted_of_fails fails
            (life.isNumbered steady keeps numbered) agenda own
          simp [stops]
      | cleaning failed cleans spawns =>
          have met : meetsSafePoint past = true := by
            cases met : meetsSafePoint past
            · simp [before, met] at failed
            · rfl
          rw [met, Bool.true_or, if_pos rfl]
          simpa [met] using before

/-- The top-level step in progress is the last one that was started. -/
theorem getLast?_opened_of_inProgress {step : Nat} (within : inProgress past = some step) :
    ((Ledger.steps α .opened).done past).getLast? = some step := by
  induction past using List.reverseRecOn with
  | nil => cases within
  | append_singleton past deed ih =>
      rw [inProgress_concat] at within
      rw [Ledger.done_append, Ledger.done_singleton]
      obtain ⟨task, reply⟩ := deed
      cases task with
      | announceStart other id command =>
          cases within
          exact List.getLast?_concat
      | announceFinish => cases within
      | _ =>
          rw [show (Ledger.steps α .opened).does _ = [] from rfl, List.append_nil]
          exact ih within

/-- A run that starts no top-level step has no start of one on its account. -/
theorem opened_eq_nil (nothing : featsIn .opening past = 0) :
    (Ledger.steps α .opened).done past = [] := by
  apply List.flatMap_eq_nil_iff.mpr
  intro deed member
  have other := List.countP_eq_zero.mp nothing deed member
  obtain ⟨task, reply⟩ := deed
  cases task <;> first | rfl | exact absurd rfl other

end Lives

section Plays

variable [Scalar α] {sequencer : Sequencer α} {past future : List (Turn α)}
variable {scene next last : Scene α} {position : Nat} {now : Instant}
variable {runId : String} {first view view' : Board} {since : List (Turn α)} {run : Nat}
variable {origin worker aborted : Worker α}

/-- A report says how its worker fared. -/
theorem Followed.state_eq {report : RunReport}
    (followed : Followed origin first since scene run worker view)
    (reported : worker.report = some report) : report.state = Worker.finalState worker.failure := by
  cases followed.stage with
  | working _ _ _ unreported => simp [unreported] at reported
  | reporting own _ reports | closed own _ reports =>
      cases reports.kept.symm.trans reported
      exact reports.state

/-- A worker that has nothing left to do has written its report, and if its run is the latest one
the state of the run is the one that the report says. -/
theorem Followed.report_of_done (followed : Followed origin first since scene run worker view)
    (finished : worker.agenda = []) :
    ∃ report, worker.report = some report ∧
      (run + 1 = scene.workers.length → scene.board.run = report.state) := by
  have ended : ¬ worker.IsOpen := by
    rintro ⟨task, member, -⟩
    simp [finished] at member
  obtain ⟨report, reports, -⟩ := followed.stage.exists_report ended
  refine ⟨report, reports.kept, fun latest => ?_⟩
  obtain ⟨own, reported, same⟩ := followed.state latest ended
  cases reports.kept.symm.trans reported
  exact same

/-- A run that is aborted within a top-level step and does not come to a safe point after that is
finished only if the step is the last one. -/
theorem Followed.eq_length_of_finished {step : Nat} {report : RunReport} {end_ : Board}
    (followed : Followed (sequencer.worker runId) first past scene run aborted view)
    (later : Followed aborted view future last run worker view')
    (whole : Followed (sequencer.worker runId) first (past ++ future) last run worker end_)
    (requested : view.control.aborted = true)
    (within : inProgress (deedsOf run past) = some step)
    (reported : worker.report = some report) (finished : report.state = .finished) :
    step = sequencer.steps.length := by
  obtain ⟨-, marks, -⟩ :=
    whole.life.accounts_of_finished (fun other => other.work) reported finished
  have opened := marks .opened
  rw [deedsOf_append, Ledger.done_append,
    opened_eq_nil (followed.opens_nothing later requested within), List.append_nil] at opened
  have latest := getLast?_opened_of_inProgress within
  rw [opened, List.getLast?_range'] at latest
  split at latest
  · cases latest
  · cases latest
    omega

/-- A run that is aborted within a top-level step comes to its end: its worker is never held and has
a bounded number of steps left. If nothing goes wrong around it from then on, a run that had not
failed before ends as aborted if the step is not the last one or a safe point is still to come, and
a run that had failed ends that way. -/
theorem aborted_run_ends (plays : sequencer.scene.Plays past scene)
    (aborts : scene.calls[position]? = some .abort) (current : scene.IsCurrent run) {step : Nat}
    (within : inProgress (deedsOf run past) = some step)
    (acted : scene.act? (.access position now) = some next) :
    ∃ aborted bound, next.workers[run]? = some aborted ∧
      ∀ future last, next.Plays future last →
        (deedsOf run future).length ≤ bound ∧
        ∃ worker, last.workers[run]? = some worker ∧ worker.next last.board ≠ .held ∧
          (worker.agenda ≠ [] → ∃ reply, (last.act? (.work run reply)).isSome = true) ∧
          (worker.agenda = [] → ∃ report, worker.report = some report ∧
            (run + 1 = last.workers.length → last.board.run = report.state)) ∧
          ((∀ deed ∈ deedsOf run future, deed.isBroken = false) →
            ∀ report, worker.report = some report →
              (aborted.failure = none →
                step ≠ sequencer.steps.length ∨ meetsSafePoint (deedsOf run future) = true →
                report.state = .aborted) ∧
              ∀ error, aborted.failure = some error →
                report.state = Worker.finalState (some error)) := by
  obtain ⟨runId, first, aborted, view, followed, requested⟩ :=
    plays.followed_abort aborts current acted
  refine ⟨aborted, aborted.remaining, followed.found, fun future last later => ?_⟩
  obtain ⟨worker, view', after⟩ := (plays.turn acted).followed later followed.restart
  obtain ⟨worker', view'', whole⟩ := (plays.turn acted).followed later followed
  cases after.found.symm.trans whole.found
  rw [List.nil_append] at after
  have bound := after.life.length_add_remaining_le followed.isSteady
    (fun other => other.aborted) requested
  have free := after.next_ne_held (after.isAborted followed.isSteady requested)
  refine ⟨by omega, worker, after.found, free, after.exists_act? free, after.report_of_done,
    fun smooth report reported => ⟨fun sound heeds => ?_, fun error failed => ?_⟩⟩
  · have fared := after.life.failure_after_abort followed.isSteady
      (followed.life.isNumbered nofun id (Worker.isNumbered_ofSteps ..)) id requested sound smooth
    have state := after.state_eq reported
    rw [fared] at state
    cases met : meetsSafePoint (deedsOf run future) with
    | true =>
        rw [met] at state
        exact state
    | false =>
        rw [met] at state heeds
        have same : deedsOf run (past ++ [⟨scene, .access position now⟩]) = deedsOf run past :=
          deedsOf_concat rfl
        rw [← same] at within
        have last := followed.eq_length_of_finished after whole requested within reported state
        exact absurd last (heeds.resolve_right Bool.false_ne_true)
  · rw [after.state_eq reported, after.life.failure_eq followed.isSteady failed]

/-- An abort within the first of two notes ends the run as aborted. -/
theorem abort_within_first_note_ends_run :
    ∃ (past future : List (Turn Float)) (last : Scene Float),
      inProgress (deedsOf 0 past) = some 1 ∧ meetsSafePoint (deedsOf 0 future) = true ∧
        last.board.run = .aborted := by
  have rehearsed : Scene.rehearseAbort (α := Float)
      ⟨none, [.comment "first", .comment "second"]⟩ ⟨2000000⟩
      (.execute "run" :: (List.replicate 2 (Act.work 0 none) ++ [Act.work 0 (some (.told 0))] ++
        List.replicate 4 (Act.work 0 none)))
      (List.replicate 13 (Act.work 0 none) ++ [Act.work 0 (some (.told 0))] ++
        List.replicate 3 (Act.work 0 none))
      (fun past next future last =>
        inProgress (deedsOf 0 past) == some 1 &&
        next.workers.all (fun aborted => aborted.failure.isNone) &&
        (deedsOf 0 future).all (fun deed => !deed.isBroken) &&
        meetsSafePoint (deedsOf 0 future) &&
        (last.workers.length == 1 && last.workers.all fun worker => worker.agenda.isEmpty)) =
      true := by
    with_unfolding_all decide
  obtain ⟨_, past, scene, next, future, last, -, plays, aborts, current, acted, later, test⟩ :=
    Scene.exists_of_rehearseAbort rehearsed
  simp only [Bool.and_eq_true, List.all_eq_true, Bool.not_eq_true', Option.isNone_iff_eq_none,
    List.isEmpty_iff] at test
  obtain ⟨⟨⟨⟨within, sound⟩, smooth⟩, met⟩, latest, done⟩ := test
  have within := eq_of_beq within
  obtain ⟨aborted, _, found, ends⟩ := aborted_run_ends plays aborts current within acted
  obtain ⟨-, worker, found', -, -, reports, fares⟩ := ends future last later
  obtain ⟨report, reported, same⟩ := reports (done worker (List.mem_of_getElem? found'))
  refine ⟨past, future, last, within, met, ?_⟩
  rw [same (eq_of_beq latest).symm]
  exact (fares smooth report reported).1 (sound aborted (List.mem_of_getElem? found)) (.inr met)

/-- An abort within the last step need not end the run as aborted: after a write that is not waited
for there is no safe point any more. -/
theorem abort_within_last_write_finishes :
    ∃ (sequencer : Sequencer Float) (past future : List (Turn Float))
      (scene next last : Scene Float),
      Sequencer.ofSequence ⟨none, [(Descriptor.set "a" 1).withParam "wait" (.bool false)]⟩
          ⟨2000000⟩ = .ok sequencer ∧
        sequencer.scene.Plays past scene ∧ scene.calls[0]? = some .abort ∧ scene.IsCurrent 0 ∧
        inProgress (deedsOf 0 past) = some 1 ∧ scene.act? (.access 0 0) = some next ∧
        next.Plays future last ∧ (∀ deed ∈ deedsOf 0 future, deed.isBroken = false) ∧
        last.board.run = .finished := by
  have rehearsed : Scene.rehearseAbort (α := Float)
      ⟨none, [(Descriptor.set "a" 1).withParam "wait" (.bool false)]⟩ ⟨2000000⟩
      (.execute "run" :: (List.replicate 2 (Act.work 0 none) ++ [Act.work 0 (some (.told 0))] ++
        List.replicate 7 (Act.work 0 none)))
      (.work 0 (some (.wrote (.ok ()))) :: (List.replicate 9 (Act.work 0 none) ++
        [Act.work 0 (some (.told 0))] ++ List.replicate 3 (Act.work 0 none)))
      (fun past _ future last =>
        inProgress (deedsOf 0 past) == some 1 &&
        (deedsOf 0 future).all (fun deed => !deed.isBroken) &&
        last.board.run == .finished) = true := by
    decide +kernel
  obtain ⟨sequencer, past, scene, next, future, last, accepted, plays, aborts, current, acted,
    later, test⟩ := Scene.exists_of_rehearseAbort rehearsed
  simp only [Bool.and_eq_true, List.all_eq_true, Bool.not_eq_true'] at test
  obtain ⟨⟨within, smooth⟩, finished⟩ := test
  exact ⟨sequencer, past, future, scene, next, last, accepted, plays, aborts, current,
    eq_of_beq within, acted, later, smooth, RunState.eq_of_beq finished⟩

end Plays

end Scan
