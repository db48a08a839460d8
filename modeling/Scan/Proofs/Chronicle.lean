import Mathlib.Data.List.Basic
import Scan.Proofs.Telling

/-!
# The chronicle of a run

What the worker of a run tells is fixed by the steps and by where the run stops. It tells that the
run is running; then, step by step, that the step starts, that each of its units of work is done,
and that it is over; and at the end the state of the run and its report. The worker is always at
some place of this chronicle, and every task that it does brings it on by the event of the task.
-/

namespace Scan

variable {α : Type}

/-! ## What there is to tell -/

namespace Event

/-- What is told of a top-level step until some of its units are done. -/
def opening (total : UInt64) (step count : Nat) (command : Command α) (units : Nat) : List Event :=
  .stepStarted step command.description :: works total count units

/-- What is told of a top-level step that is over. -/
def block (total : UInt64) (step count : Nat) (command : Command α) (units : Nat)
    (status : StepStatus) : List Event :=
  opening total step count command units ++ [Event.stepFinished step status]

/-- What is told of top-level steps that are completed one after another. -/
def blocks (total : UInt64) (step count : Nat) : List (Command α) → List Event
  | [] => []
  | command :: rest =>
      block total step count command command.workUnits.toNat .completed ++
        blocks total (step + 1) (count + command.workUnits.toNat) rest

/-- What is told of a run until some of its steps are completed. -/
def chronicle (total : UInt64) (finished : List (Command α)) : List Event :=
  .stateChanged .running :: blocks total 1 0 finished

/-- How many units of work an event tells are done, and out of how many. -/
def progress? : Event → Option (Nat × UInt64)
  | .workPerformed performed total => some (performed.toNat, total)
  | _ => none

end Event

/-- The units of work of some steps together. -/
def Command.unitsOf (commands : List (Command α)) : Nat :=
  (commands.map (·.workUnits.toNat)).sum

theorem Command.unitsOf_append (first second : List (Command α)) :
    unitsOf (first ++ second) = unitsOf first + unitsOf second := by
  simp [unitsOf]

/-- Whether events are all that is told of a run before the state that it ends in. Either all steps
are completed; or the run is aborted before a step that is never started; or it stops within a step,
which is over in the same way as the run. -/
inductive IsChronicle (total : UInt64) (steps : List (Command α)) :
    RunState → List Event → Prop where
  | finished : IsChronicle total steps .finished (Event.chronicle total steps)
  | between {first rest : List (Command α)} (split : steps = first ++ rest) (more : rest ≠ []) :
      IsChronicle total steps .aborted (Event.chronicle total first)
  | within {first rest : List (Command α)} {command : Command α} {units : Nat}
      {status : StepStatus} {state : RunState} (split : steps = first ++ command :: rest)
      (bound : units ≤ command.workUnits.toNat)
      (alike : status = .aborted ∧ state = .aborted ∨ status = .failed ∧ state = .failed) :
      IsChronicle total steps state
        (Event.chronicle total first ++
          Event.block total (first.length + 1) (Command.unitsOf first) command units status)

/-- A step that an error goes through is over in the same way as the run. -/
theorem Worker.final_alike (error : ScanError) :
    finalStatus (some error) = .aborted ∧ finalState (some error) = .aborted ∨
      finalStatus (some error) = .failed ∧ finalState (some error) = .failed := by
  cases error <;> first | exact .inl ⟨rfl, rfl⟩ | exact .inr ⟨rfl, rfl⟩

namespace Event

variable (total : UInt64) (step count units : Nat) (command : Command α)
variable (commands finished : List (Command α))

theorem blocks_concat : blocks total step count (finished ++ [command]) =
    blocks total step count finished ++
      block total (step + finished.length) (count + Command.unitsOf finished) command
        command.workUnits.toNat .completed := by
  induction finished generalizing step count with
  | nil => simp [blocks, Command.unitsOf]
  | cons first rest ih =>
      rw [List.cons_append, blocks, ih, blocks, List.append_assoc, List.length_cons,
        Command.unitsOf, Command.unitsOf, List.map_cons, List.sum_cons]
      congr 3 <;> omega

/-- A step that is completed is added to what is told. -/
theorem chronicle_concat : chronicle total (finished ++ [command]) =
    chronicle total finished ++
      block total (finished.length + 1) (Command.unitsOf finished) command
        command.workUnits.toNat .completed := by
  rw [chronicle, blocks_concat, Nat.zero_add, Nat.add_comm 1]
  rfl

variable {total step count units}

theorem progress_works (fits : count + units < 2 ^ 64) :
    (works total count units).filterMap progress? =
      (List.range' (count + 1) units).map fun performed => (performed, total) := by
  rw [works, List.filterMap_map]
  apply List.filterMap_eq_map_iff_forall_eq_some.mpr
  intro performed member
  have small := (List.mem_range'_1.mp member).2
  simp only [Function.comp, progress?]
  rw [UInt64.toNat_ofNat', Nat.mod_eq_of_lt (by omega)]

theorem progress_block (fits : count + units < 2 ^ 64) (status : StepStatus) :
    (block total step count command units status).filterMap progress? =
      (List.range' (count + 1) units).map fun performed => (performed, total) := by
  rw [← progress_works fits, block, opening, List.cons_append, List.filterMap_cons,
    List.filterMap_append]
  exact List.append_nil _

theorem progress_blocks (fits : count + Command.unitsOf commands < 2 ^ 64) :
    (blocks total step count commands).filterMap progress? =
      (List.range' (count + 1) (Command.unitsOf commands)).map
        fun performed => (performed, total) := by
  induction commands generalizing step count with
  | nil => rfl
  | cons command rest ih =>
      have sum : Command.unitsOf (command :: rest) =
          command.workUnits.toNat + Command.unitsOf rest := rfl
      rw [blocks, List.filterMap_append, progress_block command (by omega), ih (by omega), sum,
        ← List.map_append, Nat.add_right_comm count, List.range'_append_1]

end Event

/-- The units of work of a run are told one after another, none more than there are. -/
theorem IsChronicle.progress {total : UInt64} {steps : List (Command α)} {state : RunState}
    {events : List Event} (whole : IsChronicle total steps state events)
    (fits : Command.unitsOf steps < 2 ^ 64) :
    ∃ count ≤ Command.unitsOf steps, events.filterMap Event.progress? =
      (List.range' 1 count).map fun performed => (performed, total) := by
  have chronicled : ∀ {first : List (Command α)}, Command.unitsOf first < 2 ^ 64 →
      (Event.chronicle total first).filterMap Event.progress? =
        (List.range' 1 (Command.unitsOf first)).map fun performed => (performed, total) := by
    intro first fits
    exact Event.progress_blocks first (by omega)
  cases whole with
  | finished => exact ⟨_, Nat.le_refl _, chronicled fits⟩
  | @between first rest split =>
      have sum : Command.unitsOf steps = Command.unitsOf first + Command.unitsOf rest := by
        rw [split, Command.unitsOf_append]
      exact ⟨_, by omega, chronicled (by omega)⟩
  | @within first rest command units _ _ split bound =>
      have sum : Command.unitsOf steps = Command.unitsOf first +
          (command.workUnits.toNat + Command.unitsOf rest) := by
        rw [split, Command.unitsOf_append]
        rfl
      refine ⟨Command.unitsOf first + units, by omega, ?_⟩
      rw [List.filterMap_append, chronicled (by omega), Event.progress_block command (by omega),
        ← List.map_append, Nat.add_comm _ 1, List.range'_append_1]

/-! ## From step to step -/

/-- The event that a task publishes as it is. -/
def Task.announced? : Task α → Option Event
  | .announce event => some event
  | _ => none

namespace Worker

/-- What a run still does when it is through with its steps. -/
def endTasks : List (Task α) := [.clearStep, .clearActive, .report]

/-- What is left of a run that is through with its steps, up to its report. -/
inductive Ends : List (Task α) → Prop where
  | clearStep : Ends endTasks
  | clearActive : Ends [.clearActive, .report]
  | report : Ends [.report]

/-- What is left of a run that goes on with the steps ahead, the first of which has the number
`step`. -/
inductive Between (step : Nat) : List (Command α) → List (Task α) → Prop where
  | prepare (first : step = 1) (ahead : List (Command α)) :
      Between step ahead (.prepare ahead :: endTasks)
  | stampRun (remaining : List (Nat × Command α)) :
      Between step (remaining.map Prod.snd) (.stampRun :: .steps step remaining :: endTasks)
  | steps (remaining : List (Nat × Command α)) :
      Between step (remaining.map Prod.snd) (.steps step remaining :: endTasks)
  | safePoint (id : Nat) (command : Command α) (remaining : List (Nat × Command α)) :
      Between step (command :: remaining.map Prod.snd)
        (.safePoint :: .openStep step :: .announceStart step id command ::
          .closeStep step command.description :: .steps (step + 1) remaining :: endTasks)
  | openStep (id : Nat) (command : Command α) (remaining : List (Nat × Command α)) :
      Between step (command :: remaining.map Prod.snd)
        (.openStep step :: .announceStart step id command ::
          .closeStep step command.description :: .steps (step + 1) remaining :: endTasks)
  | announceStart (id : Nat) (command : Command α) (remaining : List (Nat × Command α)) :
      Between step (command :: remaining.map Prod.snd)
        (.announceStart step id command :: .closeStep step command.description ::
          .steps (step + 1) remaining :: endTasks)
  | closeStep (last : Nat) (description : String) (remaining : List (Nat × Command α)) :
      Between step (remaining.map Prod.snd)
        (.closeStep last description :: .steps step remaining :: endTasks)
  | ending {agenda : List (Task α)} (ends : Ends agenda) : Between step [] agenda

/-- What is left of a run that has stopped at a step which is over or was never started. -/
inductive Halts : List (Task α) → Prop where
  | closeStep (step : Nat) (description : String) (remaining : List (Nat × Command α)) :
      Halts (.closeStep step description :: .steps (step + 1) remaining :: endTasks)
  | ending {agenda : List (Task α)} (ends : Ends agenda) : Halts agenda

/-- What a worker has told, by where it is. -/
inductive Tells (total : UInt64) (steps : List (Command α)) (board : Board) (worker : Worker α) :
    List Event → Prop where
  | opening (sound : worker.failure = none)
      (agenda : worker.agenda =
        .announce (.stateChanged .running) :: .prepare steps :: endTasks)
      (shown : board.work.performed = 0) : Tells total steps board worker []
  | between {finished ahead : List (Command α)} (sound : worker.failure = none)
      (split : steps = finished ++ ahead)
      (place : Between (finished.length + 1) ahead worker.agenda)
      (shown : board.work.performed = .ofNat (Command.unitsOf finished)) :
      Tells total steps board worker (Event.chronicle total finished)
  | within {finished : List (Command α)} {command : Command α}
      {remaining : List (Nat × Command α)} {id done : Nat} {inner : List (Task α)}
      (split : steps = finished ++ command :: remaining.map Prod.snd)
      (agenda : worker.agenda = inner ++ .announceFinish (finished.length + 1) id ::
        .closeStep (finished.length + 1) command.description ::
          .steps (finished.length + 2) remaining :: endTasks)
      (inside : Inside board worker.failure id (Command.unitsOf finished) done
        command.workUnits.toNat inner) :
      Tells total steps board worker (Event.chronicle total finished ++
        Event.opening total (finished.length + 1) (Command.unitsOf finished) command done)
  | stopped {error : ScanError} {events : List Event} (failed : worker.failure = some error)
      (place : Halts worker.agenda)
      (whole : IsChronicle total steps (finalState (some error)) events) :
      Tells total steps board worker events
  | reported {report : RunReport} {events told : List Event} (kept : worker.report = some report)
      (whole : IsChronicle total steps report.state events)
      (place : worker.agenda <:+ [.setState report.state,
        .announce (.stateChanged report.state), .announce (.finished report)])
      (all : told ++ worker.agenda.filterMap Task.announced? =
        events ++ [Event.stateChanged report.state, .finished report]) :
      Tells total steps board worker told

variable [Scalar α] {board after : Board} {worker next : Worker α} {task : Task α}
variable {rest more : List (Task α)} {reply : Option (Reply α)} {step : Nat}
variable {ahead : List (Command α)} {error : ScanError}

omit [Scalar α] in
theorem Ends.unwind_eq {agenda : List (Task α)} (ends : Ends agenda) : unwind agenda = agenda := by
  cases ends <;> rfl

/-- A run that is through with its steps comes to its report. -/
theorem Ends.of_spawns (ends : Ends (task :: rest))
    (spawns : task.Spawns board worker reply after more) :
    (task.event? board = none ∧ after.work = board.work ∧ Ends (more ++ rest)) ∨
      task = .report ∧ rest = [] := by
  generalize shape : task :: rest = agenda at ends
  cases ends with
  | clearStep =>
      obtain ⟨rfl, rfl⟩ := List.cons.inj shape
      cases spawns with
      | clearStep => exact .inl ⟨rfl, rfl, .clearActive⟩
  | clearActive =>
      obtain ⟨rfl, rfl⟩ := List.cons.inj shape
      cases spawns with
      | clearActive => exact .inl ⟨rfl, rfl, .report⟩
  | report =>
      obtain ⟨rfl, rfl⟩ := List.cons.inj shape
      exact .inr ⟨rfl, rfl⟩

/-- Where a run goes from between two steps: on to the next one, into it, or to its report. -/
theorem Between.of_spawns (between : Between step ahead (task :: rest))
    (spawns : task.Spawns board worker reply after more) :
    (task.event? board = none ∧ after.work = board.work ∧ Between step ahead (more ++ rest)) ∨
      (∃ id command remaining, task = .announceStart step id command ∧
        ahead = command :: remaining.map Prod.snd ∧
        rest = .closeStep step command.description :: .steps (step + 1) remaining :: endTasks) ∨
      task = .report ∧ rest = [] ∧ ahead = [] := by
  generalize shape : task :: rest = agenda at between
  cases between with
  | prepare first =>
      obtain ⟨rfl, rfl⟩ := List.cons.inj shape
      cases spawns with
      | prepare =>
          subst first
          have place : Between 1 _ _ := .stampRun (Board.numbered board.monitors.size ahead)
          rw [Board.map_snd_numbered] at place
          exact .inl ⟨rfl, board.work_addCommands ahead, place⟩
  | stampRun remaining =>
      obtain ⟨rfl, rfl⟩ := List.cons.inj shape
      cases spawns with
      | stampRun => exact .inl ⟨rfl, rfl, .steps remaining⟩
  | steps remaining =>
      obtain ⟨rfl, rfl⟩ := List.cons.inj shape
      cases spawns with
      | steps =>
          refine .inl ⟨rfl, rfl, ?_⟩
          cases remaining with
          | nil => exact .ending .clearStep
          | cons pair remaining => exact .safePoint pair.1 pair.2 remaining
  | safePoint id command remaining =>
      obtain ⟨rfl, rfl⟩ := List.cons.inj shape
      cases spawns with
      | safePoint => exact .inl ⟨rfl, rfl, .openStep id command remaining⟩
  | openStep id command remaining =>
      obtain ⟨rfl, rfl⟩ := List.cons.inj shape
      cases spawns with
      | openStep => exact .inl ⟨rfl, rfl, .announceStart id command remaining⟩
  | announceStart id command remaining =>
      obtain ⟨rfl, rfl⟩ := List.cons.inj shape
      exact .inr (.inl ⟨id, command, remaining, rfl, rfl, rfl⟩)
  | closeStep last description remaining =>
      obtain ⟨rfl, rfl⟩ := List.cons.inj shape
      cases spawns with
      | closeStep => exact .inl ⟨rfl, rfl, .steps remaining⟩
  | ending ends =>
      subst shape
      rcases ends.of_spawns spawns with ⟨silent, work, ends⟩ | ⟨rfl, rfl⟩
      · exact .inl ⟨silent, work, .ending ends⟩
      · exact .inr (.inr ⟨rfl, rfl, rfl⟩)

omit [Scalar α] in
/-- Between two steps a run can only be aborted, and then there is a step that it does not start. -/
theorem Between.of_fails (between : Between step ahead (task :: rest))
    (fails : task.Fails board reply error) :
    error = .interrupted ∧ ahead ≠ [] ∧ Halts (unwind rest) := by
  generalize shape : task :: rest = agenda at between
  cases between with
  | safePoint id command remaining =>
      obtain ⟨rfl, rfl⟩ := List.cons.inj shape
      cases fails with
      | safePoint =>
          exact ⟨rfl, List.cons_ne_nil _ _, .closeStep step command.description remaining⟩
  | ending ends =>
      cases ends <;> (obtain ⟨rfl, rfl⟩ := List.cons.inj shape; cases fails)
  | _ =>
      obtain ⟨rfl, rfl⟩ := List.cons.inj shape
      cases fails

/-- A run that has stopped only comes to its report. -/
theorem Halts.of_spawns (halts : Halts (task :: rest))
    (spawns : task.Spawns board worker reply after more) :
    (task.event? board = none ∧ Halts (unwind (more ++ rest))) ∨ task = .report ∧ rest = [] := by
  generalize shape : task :: rest = agenda at halts
  cases halts with
  | closeStep step description remaining =>
      obtain ⟨rfl, rfl⟩ := List.cons.inj shape
      cases spawns with
      | closeStep => exact .inl ⟨rfl, .ending .clearStep⟩
  | ending ends =>
      subst shape
      rcases ends.of_spawns spawns with ⟨silent, -, ends⟩ | report
      · rw [ends.unwind_eq]
        exact .inl ⟨silent, .ending ends⟩
      · exact .inr report

/-! ## The course of the telling -/

variable {total : UInt64} {steps : List (Command α)} {told : List Event}

omit [Scalar α] in
theorem unwind_of_suffix {agenda : List (Task α)} {state : RunState} {first second : Event}
    (place : agenda <:+ [.setState state, .announce first, .announce second]) :
    unwind agenda = agenda := by
  cases agenda with
  | nil => rfl
  | cons task rest =>
      apply unwind_cons_of_cleansUp
      have member := place.mem List.mem_cons_self
      simp only [List.mem_cons, List.not_mem_nil, or_false] at member
      rcases member with rfl | rfl | rfl <;> rfl

/-- A run reports what it has come to. -/
theorem Outcome.tells_of_report {events : List Event}
    (outcome : Outcome board worker .report [] reply after next)
    (whole : IsChronicle total steps (finalState worker.failure) events) :
    next.Tells total steps after events := by
  cases outcome with
  | broken _ fails => cases fails
  | sound _ spawns | cleaning _ _ spawns =>
      cases spawns with
      | report now => exact .reported rfl whole List.suffix_rfl rfl

omit [Scalar α] in
/-- After its report a run only sets its state and tells the state and the report. -/
theorem cases_of_reported {agenda : List (Task α)} {report : RunReport}
    (place : agenda <:+ [.setState report.state, .announce (.stateChanged report.state),
      .announce (.finished report)]) (member : task ∈ agenda) :
    task = .setState report.state ∨ task = .announce (.stateChanged report.state) ∨
      task = .announce (.finished report) := by
  simpa using place.mem member

/-- After its report a run only tells what it says there. -/
theorem Outcome.tells_of_reported {report : RunReport} {events : List Event}
    (agenda : worker.agenda = task :: rest)
    (outcome : Outcome board worker task rest reply after next)
    (kept : worker.report = some report) (whole : IsChronicle total steps report.state events)
    (place : worker.agenda <:+ [.setState report.state, .announce (.stateChanged report.state),
      .announce (.finished report)])
    (all : told ++ worker.agenda.filterMap Task.announced? =
      events ++ [Event.stateChanged report.state, .finished report]) :
    next.Tells total steps after (told ++ (task.event? board).toList) := by
  rw [agenda] at place all
  have shorter := (List.suffix_cons task rest).trans place
  have closing := cases_of_reported place List.mem_cons_self
  have unnoted : worker.noting board task reply = worker := by
    rcases closing with rfl | rfl | rfl <;> rfl
  have nothing : ∀ {more}, task.Spawns board worker reply after more → more = [] := by
    intro more spawns
    rcases closing with rfl | rfl | rfl <;> cases spawns <;> rfl
  have goesOn : (told ++ (task.event? board).toList) ++ rest.filterMap Task.announced? =
      events ++ [Event.stateChanged report.state, .finished report] := by
    have publishes : task.event? board = task.announced? := by
      rcases closing with rfl | rfl | rfl <;> rfl
    rw [← all, publishes, List.filterMap_cons, List.append_assoc]
    cases task.announced? <;> rfl
  cases outcome with
  | broken _ fails => rcases closing with rfl | rfl | rfl <;> cases fails
  | sound _ spawns =>
      rw [nothing spawns, unnoted, List.nil_append]
      exact .reported kept whole shorter goesOn
  | cleaning _ _ spawns =>
      rw [nothing spawns, unnoted, List.nil_append, unwind_of_suffix shorter]
      exact .reported kept whole shorter goesOn

/-- Between two steps a run tells nothing until the next one starts. -/
theorem Outcome.tells_of_between {finished : List (Command α)}
    (agenda : worker.agenda = task :: rest)
    (outcome : Outcome board worker task rest reply after next)
    (accounted : ∀ command ∈ steps, command.IsAccounted) (sound : worker.failure = none)
    (split : steps = finished ++ ahead)
    (place : Between (finished.length + 1) ahead worker.agenda)
    (shown : board.work.performed = .ofNat (Command.unitsOf finished)) :
    next.Tells total steps after
      (Event.chronicle total finished ++ (task.event? board).toList) := by
  rw [agenda] at place
  cases outcome with
  | cleaning failed => simp [sound] at failed
  | broken _ fails =>
      obtain ⟨rfl, more, halts⟩ := place.of_fails fails
      rw [Task.event?_of_fails fails, Option.toList_none, List.append_nil]
      exact .stopped rfl halts (.between split more)
  | sound _ spawns =>
      rcases place.of_spawns spawns with
        ⟨silent, work, place⟩ | ⟨id, command, remaining, rfl, rfl, rfl⟩ | ⟨rfl, rfl, rfl⟩
      · rw [silent, Option.toList_none, List.append_nil]
        exact .between (by simpa using sound) split place (work ▸ shown)
      · cases spawns with
        | announceStart =>
            have own : command ∈ steps := by simp [split]
            have units : words [Task.start id command] = command.workUnits.toNat :=
              (accounted command own).symm
            have inside : Inside
                (board.publish (.stepStarted (finished.length + 1) command.description))
                worker.failure id (Command.unitsOf finished) 0 command.workUnits.toNat
                [.start id command] := by
              refine ⟨.due sound command, .told shown ?_, ?_, fun _ => ?_⟩
              · simp [Task.isWord]
              · omega
              · omega
            change Tells total steps _ _ (Event.chronicle total finished ++
              Event.opening total (finished.length + 1) (Command.unitsOf finished) command 0)
            exact .within split rfl inside
      · have whole : IsChronicle total steps (finalState worker.failure)
            (Event.chronicle total finished) := by
          rw [sound, split, List.append_nil]
          exact .finished
        rw [Task.event?, Option.toList_none, List.append_nil (Event.chronicle total finished)]
        · exact (Outcome.sound sound spawns).tells_of_report whole
        all_goals nofun

/-- When nothing is left of a step, its end is told, and how it ended. -/
theorem Outcome.tells_of_finish {finished : List (Command α)} {command : Command α}
    {remaining : List (Nat × Command α)} {id done : Nat}
    (outcome : Outcome board worker (.announceFinish (finished.length + 1) id)
      (.closeStep (finished.length + 1) command.description ::
        .steps (finished.length + 2) remaining :: endTasks) reply after next)
    (split : steps = finished ++ command :: remaining.map Prod.snd)
    (inside : Inside board worker.failure id (Command.unitsOf finished) done
      command.workUnits.toNat ([] : List (Task α))) :
    next.Tells total steps after (Event.chronicle total finished ++
      Event.block total (finished.length + 1) (Command.unitsOf finished) command done
        (finalStatus worker.failure)) := by
  cases outcome with
  | broken _ fails => cases fails
  | sound sound spawns =>
      cases spawns with
      | announceFinish =>
          have all : done = command.workUnits.toNat := inside.exact sound
          have split' : steps = (finished ++ [command]) ++ remaining.map Prod.snd := by
            rw [split, List.append_assoc]
            rfl
          rw [sound, all, finalStatus, ← Event.chronicle_concat]
          refine .between (by simpa using sound) split' ?_ ?_
          · rw [List.length_append]
            exact .closeStep (finished.length + 1) command.description remaining
          · have counting := inside.counting
            generalize shape : ([] : List (Task α)) = inner at counting
            cases counting with
            | untold => cases shape
            | told shown =>
                rw [all] at shown
                rw [Command.unitsOf_append]
                exact shown
  | cleaning failed _ spawns =>
      cases spawns with
      | announceFinish =>
          obtain ⟨error, broken⟩ := Option.isSome_iff_exists.mp failed
          rw [broken]
          refine .stopped (?_ : _ = some error) ?_ ?_
          · simpa using broken
          · exact .closeStep (finished.length + 1) command.description remaining
          · exact .within split inside.bound (final_alike error)

/-- Every step of a run is told as the chronicle says. -/
theorem Outcome.tells (agenda : worker.agenda = task :: rest)
    (outcome : Outcome board worker task rest reply after next)
    (accounted : ∀ command ∈ steps, command.IsAccounted)
    (known : worker.IsOpen → worker.IsNumbered board ∧ board.work.total = total)
    (tells : worker.Tells total steps board told) :
    next.Tells total steps after (told ++ (task.event? board).toList) := by
  cases tells with
  | reported kept whole place all =>
      exact outcome.tells_of_reported agenda kept whole place all
  | between sound split place shown =>
      exact outcome.tells_of_between agenda accounted sound split place shown
  | opening sound place shown =>
      obtain ⟨rfl, rfl⟩ := List.cons.inj (agenda.symm.trans place)
      cases outcome with
      | broken _ fails => cases fails
      | cleaning failed => simp [sound] at failed
      | sound _ spawns =>
          cases spawns with
          | announce =>
              change Tells total steps _ _ (Event.chronicle total ([] : List (Command α)))
              exact .between (by simpa using sound) rfl (.prepare rfl steps) shown
  | stopped failed place whole =>
      rw [agenda] at place
      cases outcome with
      | sound sound => simp [sound] at failed
      | broken sound => simp [sound] at failed
      | cleaning failed' cleans spawns =>
          rcases place.of_spawns spawns with ⟨silent, place⟩ | ⟨rfl, rfl⟩
          · rw [silent, Option.toList_none, List.append_nil]
            exact .stopped (by simpa using failed) place whole
          · rw [← failed] at whole
            rw [Task.event?, Option.toList_none, List.append_nil told]
            · exact (Outcome.cleaning failed' cleans spawns).tells_of_report whole
            all_goals nofun
  | @within finished command remaining id done inner split place inside =>
      cases inner with
      | nil =>
          obtain ⟨rfl, rfl⟩ := List.cons.inj (agenda.symm.trans place)
          have status := inside.settles.status_eq
          rw [Task.event?, status, List.append_assoc]
          exact outcome.tells_of_finish split inside
      | cons first inner =>
          obtain ⟨rfl, rfl⟩ := List.cons.inj (agenda.symm.trans place)
          have isOpen : worker.IsOpen := ⟨.report, by simp [place, endTasks], rfl⟩
          obtain ⟨numbered, same⟩ := known isOpen
          obtain ⟨done', inner', agenda', inside', news⟩ := outcome.inside agenda numbered inside
          rw [same] at news
          rw [List.append_assoc, Event.opening, List.cons_append, ← news]
          exact .within split agenda' inside'

omit [Scalar α] in
/-- At its beginning a run has told nothing. -/
theorem tells_ofSteps (work : board.work = WorkCounter.reset total) (pollInterval : Duration)
    (runId : String) (name : Option String) (totalWork : UInt64) :
    (ofSteps steps pollInterval runId name totalWork).Tells total steps board [] := by
  apply Tells.opening rfl rfl
  rw [work]
  rfl

omit [Scalar α] in
/-- What others do changes nothing in what a run tells. -/
theorem Tells.of_foreign (tells : worker.Tells total steps board told)
    (foreign : board.Foreign after) : worker.Tells total steps after told := by
  have work := foreign.work
  cases tells with
  | opening sound agenda shown => exact .opening sound agenda (work ▸ shown)
  | between sound split place shown => exact .between sound split place (work ▸ shown)
  | stopped failed place whole => exact .stopped failed place whole
  | reported kept whole place all => exact .reported kept whole place all
  | within split agenda inside =>
      refine .within split agenda ⟨?_, work ▸ inside.counting, inside.bound, inside.exact⟩
      exact inside.settles.of_status_eq (foreign.status _)

omit [Scalar α] in
theorem Ends.report_mem {agenda : List (Task α)} (ends : Ends agenda) : .report ∈ agenda := by
  cases ends <;> simp [endTasks]

omit [Scalar α] in
theorem Between.report_mem {agenda : List (Task α)} (between : Between step ahead agenda) :
    .report ∈ agenda := by
  cases between with
  | ending ends => exact ends.report_mem
  | _ => simp [endTasks]

omit [Scalar α] in
theorem Halts.report_mem {agenda : List (Task α)} (halts : Halts agenda) : .report ∈ agenda := by
  cases halts with
  | ending ends => exact ends.report_mem
  | closeStep => simp [endTasks]

omit [Scalar α] in
/-- A run that does not have its report to write any more has written it. -/
theorem Tells.of_unreported (tells : worker.Tells total steps board told)
    (unreported : .report ∉ worker.agenda) :
    ∃ report events, worker.report = some report ∧ IsChronicle total steps report.state events ∧
      worker.agenda <:+ [.setState report.state, .announce (.stateChanged report.state),
        .announce (.finished report)] ∧
      told ++ worker.agenda.filterMap Task.announced? =
        events ++ [Event.stateChanged report.state, .finished report] := by
  cases tells with
  | @reported report events _ kept whole place all =>
      exact ⟨report, events, kept, whole, place, all⟩
  | opening _ agenda => exact absurd (by simp [agenda, endTasks]) unreported
  | within _ agenda => exact absurd (by simp [agenda, endTasks]) unreported
  | stopped _ place => exact absurd place.report_mem unreported
  | between _ _ place => exact absurd place.report_mem unreported

omit [Scalar α] in
/-- A run that is over tells what it says in its report, whatever becomes of the board. -/
theorem Tells.of_over (tells : worker.Tells total steps board told) (ended : ¬ worker.IsOpen)
    (after : Board) : worker.Tells total steps after told := by
  obtain ⟨report, events, kept, whole, place, all⟩ :=
    tells.of_unreported fun member => ended ⟨_, member, rfl⟩
  exact .reported kept whole place all

omit [Scalar α] in
/-- A run that has nothing left to do has told the whole chronicle, its state and its report. -/
theorem Tells.whole (tells : worker.Tells total steps board told) (done : worker.agenda = []) :
    ∃ report events, worker.report = some report ∧ IsChronicle total steps report.state events ∧
      told = events ++ [Event.stateChanged report.state, .finished report] := by
  obtain ⟨report, events, kept, whole, -, all⟩ := tells.of_unreported (by simp [done])
  rw [done, List.filterMap_nil, List.append_nil] at all
  exact ⟨report, events, kept, whole, all⟩

end Worker

end Scan
