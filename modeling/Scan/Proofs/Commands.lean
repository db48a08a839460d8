import Mathlib.Data.String.Basic
import Scan.CommandLine
import Scan.Proofs.Alone

/-!
# Commands

A command finds files and environment variables, and otherwise a host that may answer in any way.
A run that nobody is asked about either cannot be started, and then nothing is seen from outside,
or it is left alone until it has come to its end; then the exit code says how it has ended, and what
is saved of it can be read back.
-/

namespace Scan.CommandLine

/-! ## What may happen -/

/-- What an action may come to, and what it does then that is seen from outside. -/
def Possible (β : Type) : Type :=
  β → List Effect → Prop

namespace Possible

variable {β γ : Type}

instance : Monad Possible where
  pure value := fun found log => found = value ∧ log = []
  bind first next := fun found log =>
    ∃ value before after, first value before ∧ next value found after ∧ log = before ++ after

/-- An answer that may be anything, without a trace outside. -/
def anything : Possible β :=
  fun _ log => log = []

instance : LawfulMonad Possible := by
  refine LawfulMonad.mk' Possible (fun first => ?_) (fun value next => ?_)
    (fun first second third => ?_)
  all_goals
    funext found log
    refine propext ⟨?_, ?_⟩
  · rintro ⟨value, before, after, done, ⟨rfl, rfl⟩, rfl⟩
    rwa [List.append_nil]
  · intro done
    exact ⟨found, log, [], done, ⟨rfl, rfl⟩, (List.append_nil log).symm⟩
  · rintro ⟨_, before, after, ⟨rfl, rfl⟩, follows, rfl⟩
    exact follows
  · intro follows
    exact ⟨value, [], log, ⟨rfl, rfl⟩, follows, rfl⟩
  · rintro ⟨value, before, after, ⟨other, one, two, begins, follows, rfl⟩, ends, rfl⟩
    exact ⟨other, one, two ++ after, begins, ⟨value, two, after, follows, ends, rfl⟩,
      List.append_assoc ..⟩
  · rintro ⟨other, one, rest, begins, ⟨value, two, after, follows, ends, rfl⟩, rfl⟩
    exact ⟨value, one ++ two, after, ⟨other, one, two, begins, follows, rfl⟩, ends,
      (List.append_assoc ..).symm⟩

/-- Whether an action comes to one result, without a trace outside. -/
def IsPure (action : Possible β) : Prop :=
  ∃ value, action = pure value

theorem IsPure.bind {first : Possible β} {next : β → Possible γ} (begins : first.IsPure)
    (follows : ∀ value, (next value).IsPure) : (first >>= next).IsPure := by
  obtain ⟨value, rfl⟩ := begins
  rw [pure_bind]
  exact follows value

end Possible

/-- What a program finds: environment variables, and files that can be read or not. -/
structure World where
  environment : List (String × String)
  contents : String → Except String String

namespace World

/-- A host in a world. Nothing is said of its answers except that files and variables are those of
the world, and that a worker is left alone until it lives on no longer. -/
def host (world : World) : Host Possible where
  environment := pure world.environment
  contents path := pure (world.contents path)
  store path text := fun result log => log = [.stored path text result]
  makeDirectory path := fun result log => log = [.madeDirectory path result]
  freshId := Possible.anything
  confirm _ := Possible.anything
  now := Possible.anything
  execute worker station := fun result log => ∃ done, log = .began worker.runId :: done ∧
    worker.Lived station done result.1 result.2 ∧ result.1.Stays result.2
  ask _ _ := Possible.anything
  serve _ _ := Possible.anything
  print _ := pure ()
  complain _ := pure ()

variable (world : World)

/-! ### What is said to the user -/

@[simp] theorem complain_eq (line : String) : world.host.complain line = pure () :=
  rfl

@[simp] theorem giveUp_eq (reason : String) : giveUp world.host reason = pure inputError := by
  rw [giveUp, complain_eq, pure_bind]

/-! ### What is found -/

end World

/-! ## What cannot be started -/

/-- What is found before a run of a file is started. -/
structure World.Prepares (world : World) (config : Option String) (file : String)
    (settings : Config Float) (sequence : Sequence) (sequencer : Sequencer Float) : Prop where
  loaded : loadConfig world.host config = pure (.ok settings)
  read : Sequence.ofFile file (world.contents file) = .ok sequence
  accepted : Sequencer.ofSequence sequence settings.pollInterval = .ok sequencer
  succeeds : (sequencer.dryRun settings.profile evaluateLiteral).1 = .ok ()

/-! ## Names of settings -/

section Names

open String

end Names

section Runs

variable {world : World} {config : Option String} {file : String} {settings : Config Float}
variable {sequence : Sequence} {sequencer : Sequencer Float} {runId : String}
variable {done : List Effect} {last : Worker Float} {here : Station Float}

/-! ## Runs -/

/-- A sequencer with one more who listens. -/
def watched (sequencer : Sequencer Float) : Sequencer Float :=
  sequencer.withBoard { sequencer.board with bus := sequencer.board.bus.subscribe }

/-- A run that is left alone from its start, with someone who listens, until it lives on no
longer. -/
inductive Runs (settings : Config Float) (sequencer : Sequencer Float) (runId : String)
    (done : List Effect) (last : Worker Float) (here : Station Float) : Prop where
  | alone (now : Instant) {started : Sequencer Float} {worker : Worker Float}
      (begins : (watched sequencer).beginRun runId = .ok (started, worker))
      (lived : worker.Lived ⟨started.board, settings.plant now⟩ done last here)
      (stays : last.Stays here) : Runs settings sequencer runId done last here

theorem World.Prepares.exists_beginRun
    (prepares : world.Prepares config file settings sequence sequencer) (runId : String) :
    ∃ started, (watched sequencer).beginRun runId =
        .ok (started, sequencer.worker runId) ∧
      started.board.work = WorkCounter.reset sequencer.totalWork ∧ started.board.control = {} ∧
      started.board.bus.pending? sequencer.board.bus.next = some #[] := by
  have fresh := Sequencer.board_eq_of_ofSequence prepares.accepted
  have free : (watched sequencer).isTaken = false := by
    rw [watched, fresh]
    rfl
  refine ⟨_, if_neg (by rw [free]; exact Bool.false_ne_true), rfl, rfl, ?_⟩
  show (sequencer.board.bus.subscribe).pending? sequencer.board.bus.next = some #[]
  rw [fresh]
  rfl

/-- What a run that has come to its end leaves behind, for someone with an inbox. -/
structure Concludes (steps : List (Command Float)) (inbox : Nat) (runId : String)
    (done : List Effect) (last : Worker Float) (here : Station Float) (report : RunReport) :
    Prop where
  reported : last.report = some report
  signed : report.runId = runId
  told : ∃ middle, done.filterMap Effect.told? =
    .stateChanged .running :: middle ++ [.finished report]
  heard : here.board.bus.pending? inbox = some (done.filterMap Effect.told?).toArray
  consistent : report.IsConsistent steps
  /-- A failure comes from outside. -/
  blames : ∀ stopped, report.stoppedAt = some stopped → report.state = .failed →
    stopped.error.code ∈ [ErrorCode.ioError, .timeout]
  writable : FitsWord steps.length →
    report.IsWritable ∧ ∀ event ∈ done.filterMap Effect.told?, event.IsWritable

/-- A run that has come to its end has a report. -/
theorem World.Prepares.exists_report
    (prepares : world.Prepares config file settings sequence sequencer)
    (runs : Runs settings sequencer runId done last here) :
    ∃ report, Concludes sequencer.steps sequencer.board.bus.next runId done last here report := by
  obtain ⟨now, begins, lived, stays⟩ := runs
  obtain ⟨started, begun, work, control, listens⟩ := prepares.exists_beginRun runId
  cases begun.symm.trans begins
  obtain ⟨report, events, reported, signed, whole, told, consistent⟩ :=
    lived.exists_report prepares.accepted work control stays
  obtain ⟨more, rfl⟩ := whole.exists_cons
  refine ⟨report, reported, signed, ⟨more ++ [.stateChanged report.state], ?_⟩, ?_, consistent,
    fun stopped stoppedAt failed => ?_, fun fits => ?_⟩
  · simp [told]
  · simp [lived.pending? listens]
  · exact lived.code_of_failed prepares.succeeds reported consistent stoppedAt failed
  · have writable := consistent.isWritable fits
    refine ⟨writable, ?_⟩
    rw [told]
    refine List.forall_mem_append.mpr ⟨whole.isWritable fits, ?_⟩
    exact List.forall_mem_cons.mpr ⟨trivial, List.forall_mem_singleton.mpr writable⟩

/-! ## What is saved -/

namespace World

end World

/-- A configuration with lists in place of tables. -/
def World.smallConfig : String :=
  "\x7b\"engine\":[true],\"logging\":[true,[true,false,[true,true]],[true,true,true,true]]\x7d"

/-- A world in which the file named scan holds a sequence of one remark, and every file whose name
ends as that of a JSON file does holds a configuration. -/
def World.small : World where
  environment := []
  contents path :=
    match path.toList.reverse with
    | ['n', 'a', 'c', 's'] =>
        .ok "name: note\nsteps: [\x7bkind: comment, params: \x7btext: all is well\x7d\x7d]"
    | 'n' :: 'o' :: 's' :: 'j' :: '.' :: _ =>
        .ok smallConfig
    | _ => .error "No such file or directory (os error 2)"

namespace World

end World

/-! ## What the command comes to -/

end Runs

end Scan.CommandLine
