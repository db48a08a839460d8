import Scan.Proofs.Consistency
import Scan.Proofs.House
import Scan.Proofs.Preflight
import Scan.Proofs.Succession
import Scan.Proofs.Texts

/-!
# Runs without company

A run that is left alone lives next to its plant until nothing is left to do, at whatever instants
its moments are and however long its rests take. What it does that is seen from outside are the
values that it writes and the events that it tells. If its dry run has succeeded it comes to a
report that blames no expression, and whoever subscribed before it began has all its events, the
report among them.
-/

namespace Scan

/-! ## Moments -/

/-- What is done that is seen from outside. -/
inductive Effect where
  /-- A run is started. -/
  | began (runId : String)
  /-- A value is written to a channel, with success or not. -/
  | wrote (channel : String) (value : Float)
  /-- An event is published. -/
  | told (event : Event)
  | madeDirectory (path : String) (result : Except String Unit)
  /-- A file is written, with success or not. -/
  | stored (path text : String) (result : Except String Unit)

/-- The event that is published. -/
def Effect.told? : Effect → Option Event
  | .told event => some event
  | _ => none

/-- What a task does that is seen from outside. -/
def Task.effects (board : Board) (task : Task Float) : List Effect :=
  (task.write?.map fun write => Effect.wrote write.1 write.2).toList ++
    ((task.event? board).map Effect.told).toList

namespace Worker

/-- What a worker does in its next step that is seen from outside. -/
def effects (worker : Worker Float) (board : Board) : List Effect :=
  worker.agenda.head?.toList.flatMap (Task.effects board)

/-- What a moment of a worker that is left alone comes to, its rest included. -/
inductive Passes (worker : Worker Float) (station : Station Float) :
    Worker Float → Station Float → Prop where
  | moved {now : Instant} {next : Worker Float} {after : Station Float}
      (lived : (worker.live (Station.surroundings evaluateLiteral now)).run station =
        (.moved next, after)) : Passes worker station next after
  | rested {now : Instant} {id : Nat} {limit : Duration} {wake : Board → Board × Worker Float}
      {after : Station Float}
      (lived : (worker.live (Station.surroundings evaluateLiteral now)).run station =
        (.resting id limit wake, after)) :
      Passes worker station (wake after.board).2 { after with board := (wake after.board).1 }

/-- What a worker that is left alone comes to, and what it does that is seen from outside. -/
inductive Lived (worker : Worker Float) (station : Station Float) :
    List Effect → Worker Float → Station Float → Prop where
  | begin : Lived worker station [] worker station
  | pass {effects : List Effect} {current next : Worker Float} {here after : Station Float}
      (lived : Lived worker station effects current here)
      (passes : current.Passes here next after) :
      Lived worker station (effects ++ current.effects here.board) next after

/-- Whether a worker lives on no longer: it has nothing left to do, or it is held. -/
def Stays (worker : Worker Float) (station : Station Float) : Prop :=
  ∃ now moment, (worker.live (Station.surroundings evaluateLiteral now)).run station =
    (moment, station) ∧ (moment = .over ∨ moment = .held)

/-- How far a worker comes in some moments of one instant, as long as it moves. -/
def moves (now : Instant) : Nat → Worker Float → Station Float → Worker Float × Station Float
  | 0, worker, station => (worker, station)
  | moments + 1, worker, station =>
      match (worker.live (Station.surroundings evaluateLiteral now)).run station with
      | (.moved next, after) => moves now moments next after
      | _ => (worker, station)

section Steps

variable {worker next current last : Worker Float} {station here after : Station Float}
variable {effects : List Effect} {task : Task Float} {rest : List (Task Float)}

/-- A worker whose next task needs the value of an expression asks for it. -/
theorem next_of_expression {text : String} (agenda : worker.agenda = task :: rest)
    (asks : task.expression? = some text) (board : Board) :
    ∃ id purpose, worker.next board = .call (.evaluate text)
      fun answer board => (board, worker.resolved id purpose answer) := by
  cases task with
  | resolve id quantity purpose =>
      cases quantity with
      | expression other =>
          cases asks
          exact ⟨id, purpose, by simp only [Worker.next, agenda]⟩
      | literal => cases asks
  | _ => cases asks

/-- A moment in which a worker moves is a step, and an expression gets the value of the
evaluator. -/
theorem exists_step_of_moved {now : Instant} (agenda : worker.agenda = task :: rest)
    (lived : (worker.live (Station.surroundings evaluateLiteral now)).run station =
      (.moved next, after)) :
    ∃ reply, worker.step? station.board reply = some (after.board, next) ∧
      Deed.IsEvaluatedBy evaluateLiteral ⟨task, reply⟩ := by
  cases asks : task.expression? with
  | none =>
      cases lives_of_run lived with
      | moved stepped =>
          refine ⟨_, stepped, fun text same => ?_⟩
          cases asks.symm.trans same
  | some text =>
      obtain ⟨id, purpose, calls⟩ := next_of_expression agenda asks station.board
      simp only [live, Station.surroundings, bind_pure_comp, bind_map_left, pure_bind, bind_assoc,
        StateT.run_bind, StateT.run_get, calls] at lived
      cases lived
      refine ⟨some (.evaluated (evaluateLiteral text)), ?_, fun other same => ?_⟩
      · rw [step?, calls]
        rfl
      · cases asks.symm.trans same
        rfl

/-- A moment is a step, and an expression gets the value of the evaluator. -/
theorem Passes.exists_step (passes : worker.Passes station next after) :
    ∃ task rest reply, worker.agenda = task :: rest ∧
      worker.step? station.board reply = some (after.board, next) ∧
        Deed.IsEvaluatedBy evaluateLiteral ⟨task, reply⟩ := by
  cases passes with
  | moved lived =>
      cases lives_of_run lived with
      | moved stepped =>
          obtain ⟨task, rest, agenda, -⟩ := step?_cases stepped
          obtain ⟨reply, stepped, evaluated⟩ := exists_step_of_moved agenda lived
          exact ⟨task, rest, reply, agenda, stepped, evaluated⟩
  | rested lived =>
      cases lives_of_run lived with
      | resting _ _ stepped =>
          obtain ⟨task, rest, agenda, -⟩ := step?_cases stepped
          refine ⟨task, rest, _, agenda, stepped, fun text asks => ?_⟩
          -- a worker that asks for a value does not rest
          obtain ⟨id, purpose, calls⟩ := next_of_expression agenda asks station.board
          rw [step?, calls] at stepped
          cases stepped

/-- What a worker has done alone is a life that nobody else has a part in. -/
theorem Lived.exists_life (lived : worker.Lived station effects last here) :
    ∃ past, Life (fun _ _ => False) station.board worker past here.board last ∧
      ∀ deed ∈ past, deed.IsEvaluatedBy evaluateLiteral := by
  induction lived with
  | begin => exact ⟨[], .begin, List.forall_mem_nil _⟩
  | pass _ passes ih =>
      obtain ⟨past, life, evaluated⟩ := ih
      obtain ⟨task, rest, reply, agenda, stepped, own⟩ := passes.exists_step
      refine ⟨past ++ [⟨task, reply⟩], life.work agenda stepped, ?_⟩
      exact List.forall_mem_append.mpr ⟨evaluated, List.forall_mem_singleton.mpr own⟩

theorem told_of_effects (agenda : worker.agenda = task :: rest) (board : Board) :
    (worker.effects board).filterMap Effect.told? = (task.event? board).toList := by
  have writes : ∀ write : Option (String × Float),
      (write.map fun write => Effect.wrote write.1 write.2).toList.filterMap Effect.told? = [] := by
    intro write
    cases write <;> rfl
  have tells : ∀ event : Option Event,
      (event.map Effect.told).toList.filterMap Effect.told? = event.toList := by
    intro event
    cases event <;> rfl
  simp [effects, agenda, Task.effects, writes, tells]

/-- Whoever has subscribed has all events that are told. -/
theorem Lived.pending? (lived : worker.Lived station effects last here) {inbox : Nat}
    {events : Array Event} (present : station.board.bus.pending? inbox = some events) :
    here.board.bus.pending? inbox =
      some (events ++ (effects.filterMap Effect.told?).toArray) := by
  induction lived with
  | begin => simpa using present
  | pass _ passes ih =>
      obtain ⟨task, rest, reply, agenda, stepped, -⟩ := passes.exists_step
      rw [bus_of_step? agenda stepped, List.filterMap_append, told_of_effects agenda]
      cases task.event? _ with
      | none => simpa using ih
      | some event => simp [Bus.pending?_publish, ih]

/-- Nobody asks a worker that is left alone to pause or to abort. -/
theorem Lived.control_eq (lived : worker.Lived station effects last here) :
    here.board.control = station.board.control := by
  induction lived with
  | begin => rfl
  | pass _ passes ih =>
      obtain ⟨task, rest, reply, agenda, stepped, -⟩ := passes.exists_step
      obtain ⟨_, _, _, ⟨more, spawns, -⟩ | ⟨error, -, same, -⟩⟩ := step?_cases stepped
      · exact (Task.control_of_spawns spawns).trans ih
      · rw [same, ih]

/-- A worker that nobody asked to pause lives on until it has nothing left to do. -/
theorem Stays.agenda_eq_nil (stays : last.Stays here) (free : here.board.control.blocks = false) :
    last.agenda = [] := by
  obtain ⟨now, moment, lived, rfl | rfl⟩ := stays
  · cases lives_of_run lived with
    | ended done => exact done
  · cases lives_of_run lived with
    | held held => exact absurd held (next_ne_held free)

end Steps

end Worker

/-! ## Runs -/

section Runs

variable {sequence : Sequence} {pollInterval : Duration} {sequencer : Sequencer Float}
variable {station here : Station Float} {last : Worker Float} {effects : List Effect}
variable {runId : String}

/-- What a run that is left alone tells is its chronicle. -/
theorem Worker.Lived.tells (lived : (sequencer.worker runId).Lived station effects last here)
    (accounted : ∀ command ∈ sequencer.steps, command.IsAccounted)
    (work : station.board.work = WorkCounter.reset sequencer.totalWork) :
    last.Tells sequencer.totalWork sequencer.steps here.board
      (effects.filterMap Effect.told?) := by
  induction lived with
  | begin => exact Worker.tells_ofSteps work ..
  | pass lived passes ih =>
      obtain ⟨task, rest, reply, agenda, stepped, -⟩ := passes.exists_step
      obtain ⟨past, life, -⟩ := lived.exists_life
      have numbered := life.isNumbered nofun nofun (Worker.isNumbered_ofSteps ..)
      have total := life.total_eq nofun nofun
      rw [work] at total
      have outcome := Worker.outcome_of_step? (life.isSteady nofun) agenda stepped
      rw [List.filterMap_append, Worker.told_of_effects agenda]
      exact outcome.tells agenda accounted (fun _ => ⟨numbered, total⟩) ih

/-- A run that is left alone and has nothing left to do has a report. It is signed with the name of
the run and consistent, it is the last thing that the run has told, and if the dry run has succeeded
a failure comes from outside. -/
theorem Worker.Lived.exists_report
    (accepted : Sequencer.ofSequence sequence pollInterval = .ok sequencer)
    (lived : (sequencer.worker runId).Lived station effects last here)
    (work : station.board.work = WorkCounter.reset sequencer.totalWork)
    (control : station.board.control = {}) (stays : last.Stays here) :
    ∃ report events, last.report = some report ∧ report.runId = runId ∧
      IsChronicle sequencer.totalWork sequencer.steps report.state events ∧
      effects.filterMap Effect.told? =
        events ++ [Event.stateChanged report.state, .finished report] ∧
      report.IsConsistent sequencer.steps := by
  obtain ⟨compiled, -, -⟩ := Sequencer.ofSequence_eq_ok accepted
  have done : last.agenda = [] := stays.agenda_eq_nil (by rw [lived.control_eq, control]; rfl)
  obtain ⟨past, life, -⟩ := lived.exists_life
  obtain ⟨report, events, reported, whole, told⟩ :=
    (lived.tells (Command.isAccounted_of_compileAll sequence.steps compiled) work).whole done
  exact ⟨report, events, reported, (life.signed nofun nofun).2 report reported, whole, told,
    life.isConsistent accepted nofun work reported⟩

/-- If the dry run of a sequence succeeds, a failed report of a run that is left alone tells of a
failed access or of a wait that took too long. -/
theorem Worker.Lived.code_of_failed {profile : Profile Float} {report : RunReport}
    (lived : (sequencer.worker runId).Lived station effects last here)
    (succeeds : (sequencer.dryRun profile evaluateLiteral).1 = .ok ())
    (reported : last.report = some report) (consistent : report.IsConsistent sequencer.steps)
    {stopped : StoppedStep} (stoppedAt : report.stoppedAt = some stopped)
    (failed : report.state = .failed) : stopped.error.code ∈ [ErrorCode.ioError, .timeout] := by
  obtain ⟨past, life, evaluated⟩ := lived.exists_life
  obtain ⟨reports, ending⟩ :=
    (life.stage nofun nofun (Worker.stage_ofSteps ..)).agenda_of_report reported
  have named := life.stoppedAt_eq reports ending
  rw [stoppedAt, Option.map_some] at named
  obtain ⟨error, failure, same⟩ := Option.map_eq_some_iff.mp named.symm
  -- no expression on the way has no value
  have heeds := life.heeds rfl evaluated
  rw [Sequencer.worker, Worker.flatMap_cues_ofSteps] at heeds
  have sound := Cue.firstFault?_of_isPrefix heeds.first (Sequencer.firstFault?_of_dryRun succeeds)
  have other : error.evalError? = none := by
    have blameless := heeds.fault.symm.trans sound
    rwa [failure, Option.bind_some] at blameless
  have outside := ScanError.code_of_isExternal (life.isExternal_of_failure nofun
    (Worker.isNumbered_ofSteps ..) nofun rfl failure other)
  have proper := ((consistent.stops stopped stoppedAt).failed_iff).mp failed
  rw [← same] at proper ⊢
  have proper : error.code ≠ .interrupted := proper
  simpa [ScanError.info, proper] using outside

end Runs

/-! ## What can be written -/

section Writable

variable {total : UInt64} {commands : List (Command Float)}

namespace Event

theorem isWritable_of_mem_opening {step count units : Nat} {command : Command Float}
    (fits : FitsWord step) :
    ∀ event ∈ opening total step count command units, event.IsWritable := by
  intro event member
  rcases List.mem_cons.mp member with rfl | member
  · exact fits
  · obtain ⟨performed, -, rfl⟩ := List.mem_map.mp member
    trivial

theorem isWritable_of_mem_block {step count units : Nat} {command : Command Float}
    {status : StepStatus} (fits : FitsWord step) :
    ∀ event ∈ block total step count command units status, event.IsWritable :=
  List.forall_mem_append.mpr ⟨isWritable_of_mem_opening fits, List.forall_mem_singleton.mpr fits⟩

theorem isWritable_of_mem_blocks {step count bound : Nat} (fits : FitsWord bound)
    (inside : step + commands.length ≤ bound + 1) :
    ∀ event ∈ blocks total step count commands, event.IsWritable := by
  induction commands generalizing step count with
  | nil => exact List.forall_mem_nil _
  | cons command rest ih =>
      rw [List.length_cons] at inside
      refine List.forall_mem_append.mpr ⟨isWritable_of_mem_block ?_, ih (by omega)⟩
      exact Nat.lt_of_le_of_lt (by omega) fits

theorem isWritable_of_mem_chronicle {bound : Nat} (fits : FitsWord bound)
    (inside : commands.length ≤ bound) :
    ∀ event ∈ chronicle total commands, event.IsWritable :=
  List.forall_mem_cons.mpr ⟨trivial, isWritable_of_mem_blocks fits (by omega)⟩

end Event

/-- If the number of the steps fits a word then all that is told of a run can be written. -/
theorem IsChronicle.isWritable {state : RunState} {events : List Event}
    (whole : IsChronicle total commands state events) (fits : FitsWord commands.length) :
    ∀ event ∈ events, event.IsWritable := by
  cases whole with
  | finished => exact Event.isWritable_of_mem_chronicle fits (Nat.le_refl _)
  | between split =>
      exact Event.isWritable_of_mem_chronicle fits (by simp [split])
  | within split =>
      have inside := congrArg List.length split
      rw [List.length_append, List.length_cons] at inside
      refine List.forall_mem_append.mpr ⟨Event.isWritable_of_mem_chronicle fits (by omega),
        Event.isWritable_of_mem_block ?_⟩
      exact Nat.lt_of_le_of_lt (by omega) fits

/-- What is told of a run begins with its running. -/
theorem IsChronicle.exists_cons {state : RunState} {events : List Event}
    (whole : IsChronicle total commands state events) :
    ∃ more, events = .stateChanged .running :: more := by
  cases whole <;> exact ⟨_, rfl⟩

/-- If the number of the steps fits a word then a consistent report can be written. -/
theorem RunReport.IsConsistent.isWritable {report : RunReport}
    (consistent : report.IsConsistent commands) (fits : FitsWord commands.length) :
    report.IsWritable := by
  cases place : report.stoppedAt with
  | none =>
      refine ⟨?_, ?_⟩
      · rwa [consistent.unstopped_iff.mp place]
      · rw [place]
        nofun
  | some stopped =>
      have stops := consistent.stops stopped place
      have before : report.stepsCompleted ≤ stopped.step := by
        rw [stops.step]
        exact Nat.le_succ _
      refine ⟨?_, ?_⟩
      · exact Nat.lt_of_le_of_lt (before.trans stops.inBounds) fits
      · rintro other found
        cases place.symm.trans found
        exact Nat.lt_of_le_of_lt stops.inBounds fits

end Writable

end Scan
