import Scan.Proofs.Failing
import Scan.Proofs.Recompiling

/-!
# What can still fail once a sequence is accepted

A sequence that is accepted has been compiled at every depth, so nothing that is compiled once more
later on is refused. A request for a run or a dry run fails because the sequencer is busy, a dry run
over an expression, and a run over an expression or for a reason that comes from outside. In
particular no step of a run is refused, because none is started a second time.
-/

namespace Scan

variable {α : Type}

/-! ## Started once -/

/-- The monitor of the step that a worker starts. -/
def Deed.started? : Deed α → Option Nat
  | ⟨.start id _, _⟩ => some id
  | _ => none

theorem Deed.exists_of_started? {task : Task α} {reply : Option (Reply α)} {id : Nat}
    (started : Deed.started? ⟨task, reply⟩ = some id) : ∃ command, task = .start id command := by
  cases task with
  | start other command =>
      cases started
      exact ⟨command, rfl⟩
  | _ => cases started

section Starting

variable [Scalar α] {board after : Board} {worker current : Worker α} {task : Task α}
variable {more : List (Task α)} {reply : Option (Reply α)} {id : Nat}

theorem Monitor.status_advance_ne_idle {monitor : Monitor} {next : StepStatus}
    (used : monitor.status ≠ .idle) : (monitor.advance next).status ≠ .idle := by
  unfold advance
  split
  · rename_i forward
    rintro rfl
    revert forward
    cases monitor.status <;> decide
  · exact used

/-- A step that was started stays so, whatever the worker does. -/
theorem Task.used_of_spawns (spawns : task.Spawns board worker reply after more)
    (exists_ : id < board.monitors.size) (used : (board.monitor id).status ≠ .idle) :
    (after.monitor id).status ≠ .idle := by
  cases errand : task.isErrand
  case true =>
    rw [(Task.status_of_isErrand errand spawns).2 id]
    exact used
  cases spawns with
  | start | settle | settleLeaf =>
      exact board.monitor_update_of _ (fun monitor => monitor.status ≠ .idle)
        (fun _ => Monitor.status_advance_ne_idle) used
  | nest body =>
      rw [board.monitor_addCommands_of_lt body exists_]
      exact used
  | prepare steps =>
      rw [board.monitor_addCommands_of_lt steps exists_]
      exact used
  | _ => first
    | exact absurd errand.symm Bool.false_ne_true
    | exact used

/-- A step that was started stays so, whether a task succeeds or fails. -/
theorem Worker.Outcome.used {rest : List (Task α)} {next : Worker α}
    (outcome : Worker.Outcome board worker task rest reply after next)
    (started : id < board.monitors.size ∧ (board.monitor id).status ≠ .idle) :
    id < after.monitors.size ∧ (after.monitor id).status ≠ .idle := by
  obtain ⟨exists_, used⟩ := started
  cases outcome with
  | sound _ spawns | cleaning _ _ spawns =>
      exact ⟨Nat.lt_of_lt_of_le exists_ (Task.size_le_of_spawns spawns),
        Task.used_of_spawns spawns exists_ used⟩
  | broken => exact ⟨exists_, used⟩

/-- A step that is started is used from then on. -/
theorem Worker.Outcome.used_of_start {command : Command α} {rest : List (Task α)}
    {next : Worker α} (outcome : Worker.Outcome board worker (.start id command) rest reply after next)
    (exists_ : id < board.monitors.size)
    (fresh : (board.monitor id).status.canAdvance .running = true) :
    id < after.monitors.size ∧ (after.monitor id).status ≠ .idle := by
  cases outcome with
  | sound _ spawns =>
      cases spawns
      rw [Board.size_update, Board.monitor_update_self exists_, Monitor.advance, if_pos fresh]
      exact ⟨exists_, by simp⟩
  | broken _ fails =>
      cases fails with
      | refused _ _ used => simp [fresh] at used
  | cleaning _ cleans => cases cleans

/-- A worker starts no step twice. -/
theorem Life.nodup_started {others : Board → Board → Prop} {now : Board} {past : List (Deed α)}
    (life : Life others board worker past now current) (steady : worker.IsSteady)
    (keeps : ∀ {now after : Board}, others now after → now.Foreign after)
    (numbered : worker.IsNumbered board) :
    (past.filterMap Deed.started?).Nodup ∧
      ∀ id ∈ past.filterMap Deed.started?,
        id < now.monitors.size ∧ (now.monitor id).status ≠ .idle := by
  induction life with
  | begin => exact ⟨.nil, List.forall_mem_nil _⟩
  | wait _ other ih =>
      obtain ⟨distinct, started⟩ := ih
      refine ⟨distinct, fun id member => ?_⟩
      rw [(keeps other).size, (keeps other).status]
      exact started id member
  | @work past now after current next task rest reply life agenda stepped ih =>
      obtain ⟨distinct, started⟩ := ih
      have fresh := life.isNumbered steady keeps numbered
      have step := Worker.outcome_of_step? (life.isSteady steady) agenda stepped
      rw [List.filterMap_append]
      have goesOn : ∀ id ∈ past.filterMap Deed.started?,
          id < after.monitors.size ∧ (after.monitor id).status ≠ .idle :=
        fun id member => step.used (started id member)
      cases own : Deed.started? ⟨task, reply⟩ with
      | none =>
          rw [List.filterMap_cons_none own, List.filterMap_nil, List.append_nil]
          exact ⟨distinct, goesOn⟩
      | some id =>
          obtain ⟨command, rfl⟩ := Deed.exists_of_started? own
          have due := Worker.mem_fresh_of_start agenda
          have new : id ∉ past.filterMap Deed.started? :=
            fun member => (started id member).2 (fresh.idle id due)
          have used := step.used_of_start (fresh.exist id due) (fresh.canAdvance agenda)
          rw [List.filterMap_cons_some own, List.filterMap_nil]
          refine ⟨List.nodup_append.mpr ⟨distinct, by simp, ?_⟩, ?_⟩
          · rintro other member _ same rfl
            cases List.mem_singleton.mp same
            exact new member
          · intro other member
            rcases List.mem_append.mp member with member | member
            · exact goesOn other member
            · cases List.mem_singleton.mp member
              exact used

end Starting

/-! ## Runs -/

/-- What holds of the worker of a run and of what it has done, whatever the sequence is that it
runs. -/
structure Worker.IsVetted [Scalar α] (descriptors : List Descriptor) (past : List (Deed α))
    (worker : Worker α) : Prop where
  /-- The run fails for a reason that comes from outside or because the evaluator has failed. -/
  failed : ∀ error, worker.failure = some error → error.isExternal = true ∨
    ∃ id text purpose source, error = .expression source ∧
      ⟨.resolve id (.expression text) purpose, some (.evaluated (.error source))⟩ ∈ past
  /-- It reports nothing else. -/
  stopped : ∀ report stopped, worker.report = some report → report.stoppedAt = some stopped →
    stopped.error.code ∈ [ErrorCode.ioError, .timeout, .interrupted] ∨
      ∃ id text purpose source, stopped.error = ⟨.invalidInput, source.message⟩ ∧
        ⟨.resolve id (.expression text) purpose, some (.evaluated (.error source))⟩ ∈ past
  /-- Whenever the steps of a loop are made afresh, the body of the loop compiles to just these. -/
  recompiles : ∀ body reply, ⟨.nest body, reply⟩ ∈ past → Command.AreBodyFrom descriptors body
  /-- No step is started a second time. -/
  once : (past.filterMap Deed.started?).Nodup

section Runs

variable [Scalar α] {sequence : Sequence} {pollInterval : Duration} {sequencer : Sequencer α}
variable {past : List (Turn α)} {scene : Scene α} {run : Nat} {worker : Worker α}
variable {runId : String} {first view : Board}

omit [Scalar α] in
/-- A task that fails over an expression has asked the evaluator for its value. -/
theorem Task.asks_of_fails {board : Board} {task : Task α} {reply : Option (Reply α)}
    {source : EvalError} (fails : task.Fails board reply (.expression source)) :
    ∃ id text purpose, task = .resolve id (.expression text) purpose ∧
      reply = some (.evaluated (.error source)) := by
  cases fails with
  | evaluated id text purpose => exact ⟨id, text, purpose, rfl, rfl⟩

/-- What a run fails over. -/
theorem Followed.excuse_of_failure {error : ScanError}
    (followed : Followed (sequencer.worker runId) first past scene run worker view)
    (failed : worker.failure = some error) :
    error.isExternal = true ∨ ∃ id text purpose source, error = .expression source ∧
      ⟨.resolve id (.expression text) purpose, some (.evaluated (.error source))⟩ ∈
        deedsOf run past := by
  cases kind : error.evalError? with
  | none => exact .inl (followed.isExternal_of_failure failed kind)
  | some source =>
      have same : error = .expression source := by
        cases error <;> cases kind
        rfl
      subst same
      obtain ⟨before, task, reply, after, _, _, _, split, -, -, -, fails, -⟩ :=
        followed.life.exists_break nofun rfl failed
      obtain ⟨id, text, purpose, rfl, rfl⟩ := Task.asks_of_fails fails
      exact .inr ⟨id, text, purpose, source, rfl, by simp [split]⟩

/-- Every run of a sequence that compiles is vetted. -/
theorem Followed.isVetted {descriptors : List Descriptor}
    (followed : Followed (sequencer.worker runId) first past scene run worker view)
    (compiled : Command.compileAll descriptors = .ok sequencer.steps) :
    worker.IsVetted descriptors (deedsOf run past) where
  failed := fun error => followed.excuse_of_failure
  stopped := by
    intro report stopped reported stoppedAt
    have named := followed.stoppedAt_eq reported
    rw [stoppedAt, Option.map_some] at named
    obtain ⟨error, failed, same⟩ := Option.map_eq_some_iff.mp named.symm
    rw [← same]
    rcases followed.excuse_of_failure failed with
      external | ⟨id, text, purpose, source, rfl, asked⟩
    · exact .inl (ScanError.code_of_isExternal external)
    · exact .inr ⟨id, text, purpose, source, rfl, asked⟩
  recompiles := fun _ _ => followed.life.areBodyFrom_of_nest compiled
  once := (followed.life.nodup_started nofun id (Worker.isNumbered_ofSteps ..)).1

/-! ## Requests -/

/-- What holds of requests to a sequencer, whatever has happened to it before. -/
structure Sequencer.IsVetted (sequencer : Sequencer α) : Prop where
  /-- The steps compile once more, to what they were compiled to before. -/
  compiles : Command.compileAll sequencer.sequence.steps = .ok sequencer.steps
  /-- So does the body of every step, at whatever depth it is. -/
  bodies : ∀ descriptor : Descriptor, descriptor.Within sequencer.sequence.steps →
    ∃ body : List (Command α), Command.compileAll descriptor.body = .ok body
  /-- A dry run may compile the sequence and the bodies of its loops anew. -/
  recompiled : ∀ (m : Type → Type) [Monad m] (runner : DryRunner m α),
    sequencer.sequence.simulate runner = Command.simulateAll runner 0 sequencer.steps
  /-- A dry run that has begun fails over an expression without a value. -/
  simulation : ∀ (σ : Type) (runner : DryRunner (StateM σ) α) (profile : Profile α) (state : σ)
    (error : ScanError), ((sequencer.simulation runner profile).run state).1.1 = .error error →
      IsExcuse runner.evaluate error
  /-- A request for a dry run fails besides only while the sequencer is busy. -/
  simulate : ∀ profile evaluate runId error,
    (sequencer.simulate profile evaluate runId).1 = .error error →
      (∃ message, error = .busy message) ∨
        ∃ text source, evaluate text = .error source ∧ error = .expression source
  beginSimulation : ∀ error, sequencer.beginSimulation = .error error →
    ∃ message, error = .busy message
  /-- A request for a run fails only while the sequencer is busy. -/
  beginRun : ∀ runId error, sequencer.beginRun runId = .error error →
    ∃ message, error = .busy message

theorem Sequencer.isVetted (compiled : Command.compileAll sequencer.sequence.steps =
    .ok sequencer.steps) : sequencer.IsVetted where
  compiles := compiled
  bodies := fun _ within => (Command.exists_compile_of_within compiled within).2
  recompiled := fun _ _ runner => Sequence.simulate_eq runner compiled
  simulation := fun _ runner profile state error =>
    Command.isExcused_simulateAll runner 0 sequencer.steps (Estimate.start profile) state error
  simulate := fun _ _ _ _ => Sequencer.error_of_simulate
  beginSimulation := by
    intro error refused
    rw [Sequencer.beginSimulation] at refused
    split at refused <;> cases refused
    exact ⟨_, rfl⟩
  beginRun := by
    intro runId error refused
    rw [Sequencer.beginRun] at refused
    split at refused <;> cases refused
    exact ⟨_, rfl⟩

/-- Once a sequence is accepted nothing in it is ever refused. Whatever has happened around the
sequencer, requests for runs and dry runs fail only because it is busy, dry runs that have begun only
over an expression, and runs only over an expression or for a reason that comes from outside. The
steps of a loop can be compiled once more for every value, and no step of a run is started twice. -/
theorem accepted_sequences_are_vetted
    (accepted : Sequencer.ofSequence sequence pollInterval = .ok sequencer)
    (plays : sequencer.scene.Plays past scene) :
    scene.sequencer.IsVetted ∧ scene.sequencer.sequence = sequence ∧
      ∀ (run : Nat) (worker : Worker α), scene.workers[run]? = some worker →
        worker.IsVetted sequence.steps (deedsOf run past) := by
  obtain ⟨compiled, -, same⟩ := Sequencer.ofSequence_eq_ok accepted
  have own : scene.sequencer = sequencer.withBoard scene.board := plays.sound.own
  have sequence_eq : scene.sequencer.sequence = sequence := by
    rw [own, same]
    rfl
  have steps : scene.sequencer.steps = sequencer.steps := by
    rw [own]
    rfl
  refine ⟨Sequencer.isVetted ?_, sequence_eq, fun run worker begun => ?_⟩
  · rw [sequence_eq, steps]
    exact compiled
  · obtain ⟨_, _, _, followed, -⟩ := plays.sound.follows begun
    exact followed.isVetted compiled

/-- Whether a deed makes the steps of a loop afresh. -/
def Deed.isNesting (deed : Deed α) : Bool :=
  match deed.task with
  | .nest _ => true
  | _ => false

/-- A loop over two values that sets a channel within a group. It is compiled again for each of the
values, five steps are started, and the run stops because the second evaluation fails. -/
theorem failed_evaluation_is_vetted :
    ∃ (past : List (Deed Rat)) (stopped : StoppedStep),
      past.countP Deed.isNesting = 2 ∧ (past.filterMap Deed.started?).length = 5 ∧
        (past.filterMap Deed.started?).Nodup ∧ stopped.error.code = .invalidInput ∧
        ∃ id text purpose source, stopped.error = ⟨.invalidInput, source.message⟩ ∧
          ⟨.resolve id (.expression text) purpose, some (.evaluated (.error source))⟩ ∈ past := by
  have rehearsed : Scene.rehearse (α := Rat)
      ⟨none, [(Descriptor.loopOver "a" 1 2 1
        [.group [((Descriptor.set "b" 0).withParam "value" (.string "x")).withParam "wait"
          (.bool false)]]).withParam "wait" (.bool false)]⟩ ⟨2000000⟩
      (.execute "run" :: Scene.workActs 2 [(.told 0, 8), (.wrote (.ok ()), 9),
        (.evaluated (.ok 3), 0), (.wrote (.ok ()), 8), (.wrote (.ok ()), 9),
        (.evaluated (.error ⟨"x", "unknown"⟩), 10), (.told 0, 3)])
      (fun past scene => (deedsOf 0 past).countP Deed.isNesting == 2 &&
        ((deedsOf 0 past).filterMap Deed.started?).length == 5 &&
        (scene.workers[0]?.bind Worker.report).any fun report =>
          report.stoppedAt.any fun stopped => decide (stopped.error.code = .invalidInput)) =
      true := by
    decide +kernel
  obtain ⟨sequencer, past, scene, accepted, plays, test⟩ := Scene.exists_of_rehearse rehearsed
  simp only [Bool.and_eq_true, beq_iff_eq, Option.any_eq_true, Option.bind_eq_some_iff,
    decide_eq_true_eq] at test
  obtain ⟨⟨nested, started⟩, report, ⟨worker, begun, reported⟩, stopped, stoppedAt, code⟩ := test
  obtain ⟨-, -, runs⟩ := accepted_sequences_are_vetted accepted plays
  have vetted := runs 0 worker begun
  refine ⟨deedsOf 0 past, stopped, nested, started, vetted.once, code, ?_⟩
  rcases vetted.stopped report stopped reported stoppedAt with outside | asked
  · simp [code] at outside
  · exact asked

end Runs

end Scan
