import Scan.Proofs.Skips

/-!
# How a step that waits is completed

A step that waits is completed only if what it waits for has come or a request to skip this very
step was accepted. No such request reaches a later step, a later pass through the body of a loop or
a later run, however it lies with the accesses of the request and the steps of the worker.
-/

namespace Scan

variable {α : Type}

/-- The step whose wait may be cut short at the end of a rest. -/
def Task.rests? : Task α → Option Nat
  | .restUntil id _ _ => some id
  | .restPoll poll _ => some poll.id
  | _ => none

theorem Board.Spares.refl (board : Board) : board.Spares board :=
  ⟨rfl, rfl, fun _ => rfl⟩

namespace Worker

/-- The steps that are still to be settled are in progress. -/
theorem Framed.mem_of_settle {top : Nat → Frame α → Prop} {base : List Nat} {current id : Nat}
    {frames : List (Frame α)} {agenda : List (Task α)} {command : Command α}
    (framed : Framed top base current frames agenda) (member : .settle id command ∈ agenda) :
    (id, command) ∈ frames := by
  induction framed with
  | outside stands =>
      cases stands with
      | apart apart => exact (apart _ member).elim
      | opening way own apart =>
          rcases List.mem_append.mp member with member | member
          · cases way _ member
          · simp only [List.mem_cons, reduceCtorEq, false_or] at member
            exact (apart _ member).elim
      | opened own apart | due own apart =>
          simp only [List.mem_cons, reduceCtorEq, false_or] at member
          exact (apart _ member).elim
  | inside own paired placed framed ih =>
      rcases List.mem_append.mp member with member | member
      · exact (own _ member).elim
      · rcases List.mem_cons.mp member with same | member
        · cases same
          exact List.mem_cons_self
        · simp only [List.mem_cons, reduceCtorEq, false_or] at member
          exact List.mem_cons_of_mem _ (ih member)

theorem Stacked.mem_of_settle {top : Nat → Frame α → Prop} {base : List Nat} {current id : Nat}
    {frames : List (Frame α)} {agenda : List (Task α)} {command : Command α}
    (stacked : Stacked top base current frames agenda) (member : .settle id command ∈ agenda) :
    (id, command) ∈ frames := by
  cases stacked with
  | working framed => exact framed.mem_of_settle member
  | entering placed framed =>
      simp only [List.mem_cons, reduceCtorEq, false_or] at member
      exact framed.mem_of_settle member
  | leaving counts placed framed =>
      rcases List.mem_append.mp member with member | member
      · exact absurd (counts _ member) Bool.false_ne_true
      · simp only [List.mem_cons, reduceCtorEq, false_or] at member
        exact List.mem_cons_of_mem _ (framed.mem_of_settle member)

/-- A rest is made for the innermost step. -/
theorem Stacked.exists_of_rests {top : Nat → Frame α → Prop} {base : List Nat} {current id : Nat}
    {frames : List (Frame α)} {task : Task α} {rest : List (Task α)}
    (stacked : Stacked top base current frames (task :: rest)) (rests : task.rests? = some id) :
    ∃ command outer, frames = (id, command) :: outer := by
  have waiting : task.isWaiting = true ∧ task.leadsToStep = false ∧ task.isCounting = false := by
    cases task <;> first | exact ⟨rfl, rfl, rfl⟩ | cases rests
  rcases stacked.cases_of_cons with ⟨-, apart | leads⟩ | ⟨_, _, rfl⟩ |
    ⟨⟨own, command⟩, outer, rfl, ⟨mine, -⟩ | rfl | counts | rfl⟩
  · cases task <;> first | exact apart.elim | cases rests
  · simp [waiting.2.1] at leads
  · cases rests
  · have same : id = own := by
      cases task with
      | restUntil | restPoll =>
          cases rests
          exact mine
      | _ => cases rests
    exact ⟨command, outer, by rw [same]⟩
  · cases rests
  · simp [waiting.2.2] at counts
  · cases rests

/-- Whatever goes wrong with a step, it is not completed. -/
theorem eq_none_of_finalStatus {failure : Option ScanError}
    (completed : finalStatus failure = .completed) : failure = none := by
  unfold finalStatus at completed
  split at completed
  · rfl
  all_goals cases completed

/-- The last rest of a wait is one after which the wait is cut short. -/
theorem Outcome.isCutShort_of_rests [Scalar α] {board after : Board} {worker next : Worker α}
    {task : Task α} {rest : List (Task α)} {reply : Option (Reply α)} {id : Nat}
    (outcome : Outcome board worker task rest reply after next) (rests : task.rests? = some id)
    (last : next.agenda = rest) : (board.monitor id).isCutShort = true := by
  cases outcome with
  | sound _ spawns =>
      cases spawns with
      | delayCut _ _ _ short | pollCut _ _ short =>
          cases rests
          exact short
      | delayGoesOn | pollGoesOn =>
          have longer := congrArg List.length last
          simp only [agenda_withAgenda, List.length_append, List.length_cons] at longer
          omega
      | _ => cases rests
  | broken _ fails => cases fails <;> cases rests
  | cleaning _ cleans =>
      have apart : task.cleansUp = false := by cases task <;> first | rfl | cases rests
      simp [apart] at cleans

end Worker

namespace Scene

variable [Scalar α] {sequencer : Sequencer α} {past future : List (Turn α)}
variable {scene next last : Scene α} {run id : Nat} {worker after : Worker α}
variable {command : Command α} {task : Task α} {rest : List (Task α)} {reply : Option (Reply α)}

/-- A step that is entered has no latch yet, and one that is settled has a monitor. -/
theorem Plays.ready (plays : sequencer.scene.Plays past scene) (fresh : sequencer.board = {})
    (found : scene.workers[run]? = some worker) (agenda : worker.agenda = task :: rest) :
    (∀ id command, task = .enter id command → (scene.board.monitor id).installed = none) ∧
      ∀ id command, .settle id command ∈ worker.agenda →
        (scene.board.monitor id).status = .running ∧ scene.IsCurrent run := by
  obtain ⟨_, _, view, followed, -⟩ := plays.sound.follows found
  by_cases isOpen : worker.IsOpen
  · have current := followed.current.mpr isOpen
    refine ⟨?_, fun id command member => ⟨?_, current⟩⟩
    · rintro id command rfl
      have nests := plays.lastNests fresh _ _ found current.1
      rw [agenda] at nests
      exact nests.installed_eq_none rfl (fun _ => ⟨nofun, nofun⟩) nofun id
    · have running := followed.life.isRunning nofun (fun other => other)
        (Worker.isNumbered_ofSteps ..) (Worker.isRunning_ofSteps ..)
      rw [followed.sees current] at running
      exact running.running id (List.mem_filterMap.mpr ⟨_, member, rfl⟩)
  · -- a run that is over has only events left
    obtain ⟨report, -, suffix⟩ := followed.stage.exists_report isOpen
    have events : ∀ task ∈ worker.agenda, ∃ event, task = .announce event :=
      fun _ => Worker.exists_event_of_suffix suffix
    refine ⟨?_, fun id command member => ?_⟩
    · rintro id command rfl
      obtain ⟨event, same⟩ := events _ (agenda ▸ List.mem_cons_self)
      cases same
    · obtain ⟨event, same⟩ := events _ member
      cases same

/-- A step that is still to be settled is running, in the run in progress. -/
theorem Plays.isCurrent_of_settle (plays : sequencer.scene.Plays past scene)
    (fresh : sequencer.board = {}) (found : scene.workers[run]? = some worker)
    (ahead : .settle id command ∈ worker.agenda) :
    (scene.board.monitor id).status = .running ∧ scene.IsCurrent run := by
  obtain ⟨task, rest, agenda⟩ := List.exists_cons_of_ne_nil (List.ne_nil_of_mem ahead)
  exact (plays.ready fresh found agenda).2 id command ahead

theorem Plays.mem_framesOf_of_settle (plays : sequencer.scene.Plays past scene)
    (fresh : sequencer.board = {}) (found : scene.workers[run]? = some worker)
    (ahead : .settle id command ∈ worker.agenda) : (id, command) ∈ framesOf (deedsOf run past) := by
  obtain ⟨-, current⟩ := plays.isCurrent_of_settle fresh found ahead
  exact (plays.lastNests fresh _ _ found current.1).stacked.mem_of_settle ahead

/-- The steps in front of the worker of the last run are on their way to the end of their waits, as
long as nothing goes wrong. -/
theorem Plays.isAttended (plays : sequencer.scene.Plays past scene) (fresh : sequencer.board = {})
    (found : scene.workers[run]? = some worker) (last : run + 1 = scene.workers.length)
    (sound : worker.failure = none) :
    Worker.IsAttended (deedsOf run past)
      (fun id => ∃ run command, HasSkipped past run (id, command)) scene.board worker.agenda := by
  revert sound
  refine plays.last_induction (fun run past board worker => worker.failure = none →
    Worker.IsAttended (deedsOf run past)
      (fun id => ∃ run command, HasSkipped past run (id, command)) board worker.agenda)
    ?_ ?_ ?_ found last
  · intro past scene runId plays free before sound front id command rest split
    have member : .settle id command ∈ (sequencer.worker runId).agenda := by simp [split]
    simp [Sequencer.worker, Worker.ofSteps] at member
  · intro past scene run worker after reply board plays found stepped before sound
    obtain ⟨_, _, _, followed, -⟩ := plays.sound.follows found
    obtain ⟨task, rest, agenda, -⟩ := Worker.step?_cases stepped
    obtain ⟨bare, running⟩ := plays.ready fresh found agenda
    rw [deedsOf_work found agenda]
    cases Worker.outcome_of_step? followed.isSteady agenda stepped with
    | broken => cases sound
    | cleaning failed => simp [Option.isSome_iff_ne_none.mp failed] at sound
    | sound was spawns =>
        have attended := before was
        rw [agenda] at attended running
        refine (attended.of_spawns spawns ?_ bare fun id command member =>
          Board.lt_size_of_running (running id command (List.mem_cons_of_mem _ member)).1).of_spares
            (.refl _) fun id => ?_
        · intro id short
          rcases plays.isUnskipped_or fresh id with unskipped | skipped
          · simp [unskipped.isCutShort] at short
          · exact skipped
        · rintro ⟨run, command, skipped⟩
          exact ⟨run, command, skipped.mono _⟩
  · intro past turn run worker board spares silent before sound
    rw [deedsOf_concat silent]
    refine (before sound).of_spares spares fun id => ?_
    rintro ⟨run, command, skipped⟩
    exact ⟨run, command, skipped.mono _⟩

/-- A step is settled by what has gone wrong. -/
theorem Plays.status_of_settle (plays : sequencer.scene.Plays past scene)
    (fresh : sequencer.board = {}) (found : scene.workers[run]? = some worker)
    (agenda : worker.agenda = .settle id command :: rest)
    (acted : scene.act? (.work run reply) = some next) :
    (next.board.monitor id).status = Worker.finalStatus worker.failure := by
  obtain ⟨running, -⟩ := plays.isCurrent_of_settle fresh found (agenda ▸ List.mem_cons_self)
  obtain ⟨_, board, after, found', stepped, rfl⟩ := exists_of_work acted
  cases found.symm.trans found'
  obtain ⟨_, _, _, followed, -⟩ := plays.sound.follows found
  cases Worker.outcome_of_step? followed.isSteady agenda stepped with
  | sound sound spawns =>
      cases spawns with
      | settle => exact Board.status_settle running _
      | settleLeaf => exact sound ▸ Board.status_settle running none
  | broken _ fails => cases fails
  | cleaning failed _ spawns =>
      cases spawns with
      | settle => exact Board.status_settle running _
      | settleLeaf _ _ sound => simp [sound] at failed

/-- A step that waits is completed only if what it waits for has come or a request to skip it was
accepted. -/
theorem Plays.isFulfilled_or_hasSkipped (plays : sequencer.scene.Plays past scene)
    (fresh : sequencer.board = {}) (found : scene.workers[run]? = some worker)
    (agenda : worker.agenda = .settle id command :: rest) (waits : command.isSkippable = true)
    (acted : scene.act? (.work run reply) = some next)
    (completed : (next.board.monitor id).status = .completed) :
    command.IsFulfilled (deedsOf run past) id ∨ HasSkipped past run (id, command) := by
  have ahead : .settle id command ∈ worker.agenda := agenda ▸ List.mem_cons_self
  obtain ⟨-, current⟩ := plays.isCurrent_of_settle fresh found ahead
  have sound : worker.failure = none := Worker.eq_none_of_finalStatus
    ((plays.status_of_settle fresh found agenda acted).symm.trans completed)
  have attended := plays.isAttended fresh found current.1 sound
  rw [agenda] at attended
  refine (attended.of_settle waits).imp_right ?_
  rintro ⟨other, command', skipped⟩
  exact plays.hasSkipped_unique (plays.mem_framesOf_of_settle fresh found ahead) skipped

/-- A wait that ends with a rest is one of the innermost step, and a request to skip this step was
accepted. -/
theorem Plays.hasSkipped_of_rests (plays : sequencer.scene.Plays past scene)
    (fresh : sequencer.board = {}) (found : scene.workers[run]? = some worker)
    (agenda : worker.agenda = task :: rest) (rests : task.rests? = some id)
    (acted : scene.act? (.work run reply) = some next) (found' : next.workers[run]? = some after)
    (last : after.agenda = rest) :
    ∃ command, (framesOf (deedsOf run past)).head? = some (id, command) ∧
      HasSkipped past run (id, command) := by
  obtain ⟨_, board, moved, own, stepped, rfl⟩ := exists_of_work acted
  cases found.symm.trans own
  rw [List.getElem?_set_self (List.getElem?_eq_some_iff.mp found).1] at found'
  cases found'
  obtain ⟨_, _, _, followed, -⟩ := plays.sound.follows found
  have outcome := Worker.outcome_of_step? followed.isSteady agenda stepped
  have short := outcome.isCutShort_of_rests rests last
  have current : scene.IsCurrent run := followed.isCurrent_of_step stepped agenda fun event same => by
    subst same
    cases rests
  have nests := plays.lastNests fresh _ _ found current.1
  rw [agenda] at nests
  obtain ⟨command, outer, innermost⟩ := nests.stacked.exists_of_rests rests
  have own : (id, command) ∈ framesOf (deedsOf run past) := innermost ▸ List.mem_cons_self
  exact ⟨command, by rw [innermost]; rfl, plays.hasSkipped_of_isCutShort fresh own short⟩

/-- What requests to skip come to, under every interleaving with runs and with other calls.

A request that is accepted has found a step that waits as the innermost one of the run in progress,
has then found it running, and was then passed on. A request that is not accepted leaves everything
as it is, at each of its accesses. When a request is passed on, it has been accepted by its step,
and nothing but the monitor of this step is changed.

No monitor is given to two steps, whatever their runs, and a request is accepted only by a step that
was started in its run. If a wait ends with a rest, it is that of the innermost step, and a request
to skip this very step was accepted. If a step that waits is completed, what it waits for has come
or a request to skip this very step was accepted. -/
theorem skips_keep_to_their_step {sequence : Sequence} {pollInterval : Duration}
    (accepted : Sequencer.ofSequence sequence pollInterval = .ok sequencer)
    (plays : sequencer.scene.Plays past scene) :
    (∀ {position : Nat} {future : List (Turn α)} {last : Scene α} {result : CallResult},
        scene.calls[position]? = some .skip → scene.Plays future last →
        answer? position future = some result →
        (result = .skipped true ∧ ∃ entry run frame accesses,
            accessesOf position future = entry :: accesses ∧ entry.call? = some .skip ∧
            entry.scene.board.run.isActive = true ∧ Skips (past ++ future) run frame accesses) ∨
          result = .skipped false ∧ ∀ turn ∈ accessesOf position future, ∀ next,
            turn.scene.act? turn.act = some next →
              next.sequencer = turn.scene.sequencer ∧ next.workers = turn.scene.workers) ∧
      (∀ act id next, (⟨scene, act⟩ : Turn α).call? = some (.skipRecord id) →
        scene.act? act = some next →
          (∃ run command, HasSkipped (past ++ [⟨scene, act⟩]) run (id, command)) ∧
            next.board = scene.board.update id Monitor.recordSkip ∧ next.workers = scene.workers) ∧
      ((past.filterMap Turn.starts?).map fun started => started.2.1).Nodup ∧
      (∀ run frame, HasSkipped past run frame → (run, frame) ∈ past.filterMap Turn.starts?) ∧
      (∀ run worker task rest id reply next after, scene.workers[run]? = some worker →
        worker.agenda = task :: rest → task.rests? = some id →
        scene.act? (.work run reply) = some next → next.workers[run]? = some after →
        after.agenda = rest →
          ∃ command, (framesOf (deedsOf run past)).head? = some (id, command) ∧
            HasSkipped past run (id, command)) ∧
      ∀ run worker id command rest reply next, scene.workers[run]? = some worker →
        worker.agenda = .settle id command :: rest → command.isSkippable = true →
        scene.act? (.work run reply) = some next → (next.board.monitor id).status = .completed →
          command.IsFulfilled (deedsOf run past) id ∨ HasSkipped past run (id, command) := by
  have fresh := Sequencer.board_eq_of_ofSequence accepted
  refine ⟨fun found later answered => ?_, fun act id next records acted => ⟨?_, ?_⟩,
    plays.nodup_starts.1, fun run frame skipped => plays.mem_starts_of_hasSkipped skipped,
    fun run worker task rest id reply next after found agenda rests acted =>
      plays.hasSkipped_of_rests fresh found agenda rests acted,
    fun run worker id command rest reply next found agenda waits acted =>
      plays.isFulfilled_or_hasSkipped fresh found agenda waits acted⟩
  · refine (plays.skips_or_only_asks fresh later found answered).imp_right ?_
    rintro ⟨refused, asks⟩
    refine ⟨refused, fun turn member next acted => ?_⟩
    obtain ⟨call, calls, asking⟩ := asks turn member
    obtain ⟨now, same, workers⟩ := exists_of_call? acted calls
    rw [call.board_of_isAsking asking] at same
    exact ⟨same, workers⟩
  · exact plays.hasSkipped_of_record fresh records
  · obtain ⟨now, same, workers⟩ := exists_of_call? acted records
    exact ⟨congrArg Sequencer.board same, workers⟩

/-- A delay within a loop is skipped when it has begun but does not wait yet: its wait ends at once,
before its time has elapsed, and it is completed. The request was accepted by the delay of this
pass. -/
theorem held_skip_ends_delay :
    ∃ (sequencer : Sequencer Rat) (past : List (Turn Rat)) (scene next : Scene Rat)
      (command : Command Rat), sequencer.scene.Plays past scene ∧
        scene.act? (.work 0 none) = some next ∧ (next.board.monitor 1).status = .completed ∧
        command.kind = "delay" ∧ ¬ command.IsFulfilled (deedsOf 0 past) 1 ∧
        HasSkipped past 0 (1, command) := by
  have rehearsed : Scene.rehearse (α := Rat) ⟨none, [.loopOver "a" 1 2 1 [.delay 1]]⟩ ⟨2000000⟩
      (.execute "run" :: Scene.workActs 2
          [(.told 0, 8), (.wrote (.ok ()), 1), (.told 1, 0), (.told 2, 1), (.found (.ok 1), 8)] ++
        .invoke .skip :: List.replicate 4 (.access 0 0) ++
        Scene.workActs 1 [(.told 3, 0), (.told 4, 1), (.told 5, 0), (.rested, 2)])
      (fun past scene =>
        (scene.workers[0]?.any fun worker => worker.agenda.head?.any fun task => task.cleansUp &&
          task.frames.any fun frame => decide (frame.1 = 1) && decide (frame.2.kind = "delay")) &&
        ((scene.act? (.work 0 none)).any fun next =>
          decide ((next.board.monitor 1).status = .completed)) &&
        (deedsOf 0 past).all fun deed => decide (deed.heard ≠ some (.told 1))) = true := by
    decide +kernel
  obtain ⟨sequencer, past, scene, accepted, plays, test⟩ := Scene.exists_of_rehearse rehearsed
  simp only [Bool.and_eq_true, Option.any_eq_true, List.any_eq_true, List.all_eq_true,
    decide_eq_true_eq] at test
  obtain ⟨⟨⟨worker, found, task, head, cleans, ⟨id, command⟩, member, rfl, kind⟩, next, acted,
    completed⟩, early⟩ := test
  obtain ⟨rest, agenda⟩ : ∃ rest, worker.agenda = .settle 1 command :: rest := by
    cases shape : worker.agenda with
    | nil => simp [shape] at head
    | cons first rest =>
        simp only [shape, List.head?_cons, Option.some.injEq] at head
        subst head
        cases first with
        | settle =>
            cases List.mem_singleton.mp member
            exact ⟨rest, rfl⟩
        | _ => first | exact absurd cleans Bool.false_ne_true | cases member
  have unfulfilled : ¬ command.IsFulfilled (deedsOf 0 past) 1 := by
    intro fulfilled
    cases fulfilled with
    | observed own => cases own <;> simp [Command.kind] at kind
    | elapsed due told passed =>
        refine early _ told ?_
        simp [Deed.heard, Task.timeUp, passed]
  have waits : command.isSkippable = true := by
    cases command <;> first | rfl | simp [Command.kind] at kind
  obtain ⟨-, -, -, -, -, settles⟩ := skips_keep_to_their_step accepted plays
  exact ⟨sequencer, past, scene, next, command, plays, acted, completed, kind, unfulfilled,
    (settles 0 worker 1 command rest none next found agenda waits acted completed).resolve_left
      unfulfilled⟩

end Scene

end Scan
