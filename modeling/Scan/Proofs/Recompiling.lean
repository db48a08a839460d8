import Scan.Proofs.Compiled
import Scan.Proofs.Preflight

/-!
# Dry runs that compile anew

A dry run may compile the steps of its sequence once more before it walks through them, and the body
of a loop once more for every value. For a sequence that compiles this never fails and makes no
difference. So a dry run can fail only over an expression that its evaluator gives no value for.
-/

namespace Scan

section Definitions

variable {m : Type → Type} [Monad m] {α : Type} [Scalar α]

namespace Descriptor

mutual

/-- The dry run of a descriptor and the command that it was compiled into, by which the body of a
loop is compiled anew for every value. -/
def simulate (runner : DryRunner m α) (number : Nat) :
    Descriptor → Command α → DryRun m α Unit
  | ⟨_, _, _, body⟩, .loop _ sweep _ _ => do
      runner.arrive number
      (List.range sweep.iterations).forM fun iteration => do
        let value := sweep.value iteration
        modify fun estimate =>
          let seconds := sweep.completion.cost estimate sweep.channel value
          (estimate.assign sweep.channel sweep.completion.readback value).log (sweep.label value)
            seconds
        match Command.compileAll body with
        | .ok commands => simulateAll runner.unnumbered 0 body commands
        | .error error => throw error
  | ⟨_, _, _, body⟩, .group _ children _ => do
      runner.arrive number
      simulateAll runner (number + 1) body children
  | _, command => command.simulate runner number

/-- The dry run of descriptors and their commands in order, up to the first that fails. -/
def simulateAll (runner : DryRunner m α) (number : Nat) :
    List Descriptor → List (Command α) → DryRun m α Unit
  | descriptor :: descriptors, command :: commands => do
      simulate runner number descriptor command
      simulateAll runner (number + command.monitorCount) descriptors commands
  | _, _ => pure ()

end

end Descriptor

/-- The dry run of a sequence that is compiled for it. -/
def Sequence.simulate (runner : DryRunner m α) (sequence : Sequence) : DryRun m α Unit :=
  match Command.compileAll sequence.steps with
  | .ok commands => Descriptor.simulateAll runner 0 sequence.steps commands
  | .error error => throw error

end Definitions

section Recompilation

variable {m : Type → Type} [Monad m] {α : Type} [Scalar α]

namespace Descriptor

mutual

/-- Compiling the bodies of loops anew makes no difference to the dry run of a command. -/
theorem simulate_eq (runner : DryRunner m α) (number : Nat) : (descriptor : Descriptor) →
    {command : Command α} → Command.compile descriptor = .ok command →
      descriptor.simulate runner number command = command.simulate runner number
  | ⟨kind, label, params, body⟩, .loop _ sweep nested _, compiled => by
      obtain ⟨-, compiledBody⟩ := Command.compileAll_of_compile_loop compiled
      rw [simulate, Command.simulate]
      simp only [compiledBody]
      rw [simulateAll_eq runner.unnumbered 0 body compiledBody]
  | ⟨kind, label, params, body⟩, .group _ children _, compiled => by
      obtain ⟨-, compiledBody⟩ := Command.compileAll_of_compile_group compiled
      rw [simulate, Command.simulate, simulateAll_eq runner (number + 1) body compiledBody]
  | ⟨kind, label, params, body⟩, .delay .., _ | ⟨kind, label, params, body⟩, .set .., _
  | ⟨kind, label, params, body⟩, .wait .., _ | ⟨kind, label, params, body⟩, .comment .., _ => by
      rw [simulate] <;> nofun

/-- The same of the dry run of commands in order. -/
theorem simulateAll_eq (runner : DryRunner m α) (number : Nat) : (descriptors : List Descriptor) →
    {commands : List (Command α)} → Command.compileAll descriptors = .ok commands →
      simulateAll runner number descriptors commands =
        Command.simulateAll runner number commands
  | [], commands, compiled => by
      rw [Command.compileAll] at compiled
      cases compiled
      rw [simulateAll, Command.simulateAll]
      nofun
  | descriptor :: rest, commands, compiled => by
      rw [Command.compileAll] at compiled
      obtain ⟨command, compiledFirst, compiled⟩ := bind_eq_ok.mp compiled
      obtain ⟨others, compiledRest, made⟩ := bind_eq_ok.mp compiled
      cases made
      rw [simulateAll, Command.simulateAll, simulate_eq runner number descriptor compiledFirst,
        simulateAll_eq runner _ rest compiledRest]

end

end Descriptor

/-- The dry run of a sequence that compiles is that of its commands, though each of them is compiled
again and again. -/
theorem Sequence.simulate_eq (runner : DryRunner m α) {sequence : Sequence}
    {commands : List (Command α)} (compiled : Command.compileAll sequence.steps = .ok commands) :
    sequence.simulate runner = Command.simulateAll runner 0 commands := by
  rw [simulate, compiled]
  exact Descriptor.simulateAll_eq runner 0 sequence.steps compiled

end Recompilation

/-! ## What a dry run fails over -/

section Excuses

variable {σ α : Type}

/-- An error that an evaluator, which may remember what it was asked before, gives for some text. -/
def IsExcuse (evaluate : String → StateM σ (Except EvalError α)) (error : ScanError) : Prop :=
  ∃ text source before after,
    (evaluate text).run before = (.error source, after) ∧ error = .expression source

/-- What a dry run comes to from a state of the evaluator on. -/
def DryRun.result {β : Type} (run : DryRun (StateM σ) α β) (estimate : Estimate α) (state : σ) :
    Except ScanError β :=
  ((run.run.run estimate).run state).1.1

/-- A dry run that fails only with errors of the evaluator. -/
def DryRun.IsExcused {β : Type} (evaluate : String → StateM σ (Except EvalError α))
    (run : DryRun (StateM σ) α β) : Prop :=
  ∀ estimate state error, run.result estimate state = .error error → IsExcuse evaluate error

namespace DryRun.IsExcused

variable {β γ : Type} {evaluate : String → StateM σ (Except EvalError α)}
variable {run : DryRun (StateM σ) α β} {next : β → DryRun (StateM σ) α γ}

theorem pure (found : β) : IsExcused evaluate (pure found : DryRun (StateM σ) α β) := by
  intro estimate state error fails
  cases fails

theorem modify (change : Estimate α → Estimate α) :
    IsExcused evaluate (modify change : DryRun (StateM σ) α PUnit) := by
  intro estimate state error fails
  cases fails

theorem arrive (runner : DryRunner (StateM σ) α) (number : Nat) :
    IsExcused evaluate (runner.arrive number) := by
  intro estimate state error fails
  cases fails

theorem bind (excused : IsExcused evaluate run) (goesOn : ∀ found, IsExcused evaluate (next found)) :
    IsExcused evaluate (run >>= next) := by
  intro estimate state error fails
  have own := excused estimate state
  simp only [result, ExceptT.run_bind, StateT.run_bind] at fails own
  generalize (run.run.run estimate).run state = outcome at fails own
  obtain ⟨⟨found | found, later⟩, after⟩ := outcome
  · cases fails
    exact own _ rfl
  · exact goesOn found later after error fails

theorem forM {items : List γ} {visit : γ → DryRun (StateM σ) α Unit}
    (excused : ∀ item ∈ items, IsExcused evaluate (visit item)) :
    IsExcused evaluate (items.forM visit) := by
  induction items with
  | nil => exact .pure ()
  | cons item rest ih =>
      obtain ⟨own, behind⟩ := List.forall_mem_cons.mp excused
      exact .bind own fun _ => ih behind

/-- Asking the evaluator leaves the estimate as it is. -/
theorem run_lift (asked : StateM σ β) (estimate : Estimate α) (state : σ) :
    ((liftM asked : DryRun (StateM σ) α β).run.run estimate).run state =
      ((.ok (asked.run state).1, estimate), (asked.run state).2) :=
  rfl

/-- The value of a quantity is missing only if the evaluator says so. -/
theorem resolve (runner : DryRunner (StateM σ) α) (quantity : Quantity α) :
    IsExcused runner.evaluate (runner.resolve quantity) := by
  cases quantity with
  | literal value => exact .pure value
  | expression text =>
      intro estimate state error fails
      rw [DryRunner.resolve, result, ExceptT.run_bind, StateT.run_bind, StateT.run_bind,
        run_lift] at fails
      generalize answer : (runner.evaluate text).run state = found at fails
      obtain ⟨source | value, after⟩ := found
      · cases fails
        exact ⟨text, source, state, after, answer, rfl⟩
      · cases fails

end DryRun.IsExcused

namespace Command

variable [Scalar α]

mutual

/-- The dry run of a command fails only with errors of the evaluator. -/
theorem isExcused_simulate (runner : DryRunner (StateM σ) α) (number : Nat) :
    (command : Command α) → DryRun.IsExcused runner.evaluate (command.simulate runner number)
  | .delay .. | .comment .. => by
      rw [simulate]
      exact .bind (.arrive runner number) fun _ => .modify _
  | .set _ assignment => by
      rw [simulate]
      exact .bind (.arrive runner number) fun _ =>
        .bind (.resolve runner assignment.value) fun _ => .modify _
  | .wait _ condition => by
      rw [simulate]
      exact .bind (.arrive runner number) fun _ =>
        .bind (.resolve runner condition.value) fun _ => .modify _
  | .loop _ sweep body _ => by
      rw [simulate]
      refine .bind (.arrive runner number) fun _ => .forM fun iteration _ => ?_
      exact .bind (.modify _) fun _ => isExcused_simulateAll runner.unnumbered 0 body
  | .group _ children _ => by
      rw [simulate]
      exact .bind (.arrive runner number) fun _ =>
        isExcused_simulateAll runner (number + 1) children

/-- The dry run of commands in order fails only with errors of the evaluator. -/
theorem isExcused_simulateAll (runner : DryRunner (StateM σ) α) (number : Nat) :
    (commands : List (Command α)) →
      DryRun.IsExcused runner.evaluate (simulateAll runner number commands)
  | [] => .pure ()
  | command :: rest => by
      rw [simulateAll]
      exact .bind (isExcused_simulate runner number command) fun _ =>
        isExcused_simulateAll runner _ rest

end

end Command

end Excuses

section Functions

variable {α : Type} {evaluate : String → Except EvalError α}

theorem Cue.exists_of_firstFault? {cues : List (Cue α)} {source : EvalError}
    (fault : Cue.firstFault? evaluate cues = some source) :
    ∃ text, evaluate text = .error source := by
  obtain ⟨cue, -, own⟩ := List.exists_of_findSome?_eq_some fault
  cases cue with
  | evaluate text =>
      simp only [Cue.fault?] at own
      cases answer : evaluate text with
      | ok => simp [answer] at own
      | error error =>
          rw [answer] at own
          cases own
          exact ⟨text, answer⟩
  | write | count => cases own

/-- A request for a dry run fails because the sequencer is busy, or over an expression that has no
value. -/
theorem Sequencer.error_of_simulate [Scalar α] {sequencer : Sequencer α} {profile : Profile α}
    {runId : String} {error : ScanError}
    (fails : (sequencer.simulate profile evaluate runId).1 = .error error) :
    (∃ message, error = .busy message) ∨
      ∃ text source, evaluate text = .error source ∧ error = .expression source := by
  cases taken : sequencer.isTaken with
  | true =>
      rw [simulate, beginSimulation, if_pos taken] at fails
      cases fails
      exact .inl ⟨_, rfl⟩
  | false =>
      have free : (sequencer.withBoard sequencer.board).isTaken = false := taken
      have found := (sequencer.dryRun_heeds profile evaluate).outcome
      have whole := Sequencer.simulate_eq free profile evaluate runId
      rw [show sequencer.withBoard sequencer.board = sequencer from rfl, fails] at whole
      rw [Sequencer.simulationReport_eq_error.mp whole.symm] at found
      split at found
      · rename_i source fault
        cases found
        obtain ⟨text, answer⟩ := Cue.exists_of_firstFault? fault
        exact .inr ⟨text, source, answer, rfl⟩
      · cases found

end Functions

end Scan
