import Mathlib.Control.Monad.Basic
import Scan.Worker

/-!
# The steps of a worker

A step of a worker does the task at the head of its agenda, with a reply from the surroundings if
the task is a call. What a step can do is said once, by two relations: a task succeeds and puts
more tasks in its place, or it fails. Every invariant of a run is a statement about these two.
-/

namespace Scan

variable {α : Type}

/-- What a worker gets back from a call. -/
inductive Reply (α : Type) where
  | evaluated (answer : Except EvalError α)
  | found (answer : Except IoError α)
  | wrote (answer : Except IoError Unit)
  | told (now : Instant)
  | rested
  deriving DecidableEq

/-- One step of a worker as others see it: the task that it does and the reply to its call. -/
structure Deed (α : Type) where
  task : Task α
  reply : Option (Reply α)

/-- The reply that carries an answer to a query. -/
def Query.reply : (query : Query α) → query.Answer → Reply α
  | .evaluate _, answer => .evaluated answer
  | .read _, answer => .found answer
  | .write .., answer => .wrote answer
  | .clock, now => .told now
  | .rest .., () => .rested

namespace Next

/-- What comes of what a worker does next, given the reply to its call if it makes one: nothing if
the worker is held or done, or if the reply does not fit. -/
def take? (board : Board) : Next α → Option (Reply α) → Option (Board × Worker α)
  | .act board worker, none => some (board, worker)
  | .call (.evaluate _) resume, some (.evaluated answer) => some (resume answer board)
  | .call (.read _) resume, some (.found answer) => some (resume answer board)
  | .call (.write _ _) resume, some (.wrote answer) => some (resume answer board)
  | .call .clock resume, some (.told now) => some (resume now board)
  | .call (.rest _ _) resume, some .rested => some (resume () board)
  | _, _ => none

variable {board : Board} {reply : Option (Reply α)} {result : Board × Worker α}

@[simp] theorem take?_done : (done : Next α).take? board reply = none := by
  rcases reply with _ | _ | _ <;> rfl

@[simp] theorem take?_held : (held : Next α).take? board reply = none := by
  rcases reply with _ | _ | _ <;> rfl

@[simp] theorem take?_act {after : Board} {worker : Worker α} :
    (act after worker).take? board reply = some result ↔
      reply = none ∧ result = (after, worker) := by
  constructor
  · intro taken
    cases reply with
    | none =>
        cases taken
        exact ⟨rfl, rfl⟩
    | some reply => cases reply <;> cases taken
  · rintro ⟨rfl, rfl⟩
    rfl

/-- A call goes on with the answer of a reply that fits, and with no other one. -/
theorem take?_call {query : Query α} {resume : query.Answer → Board → Board × Worker α} :
    (call query resume).take? board reply = some result ↔
      ∃ answer, reply = some (query.reply answer) ∧ result = resume answer board := by
  constructor
  · intro taken
    cases reply with
    | none => cases query <;> cases taken
    | some reply =>
        cases query <;> cases reply <;> cases taken <;> exact ⟨_, rfl, rfl⟩
  · rintro ⟨answer, rfl, rfl⟩
    cases query <;> rfl

@[simp] theorem take?_evaluate {text : String}
    {resume : Except EvalError α → Board → Board × Worker α} :
    (call (.evaluate text) resume).take? board reply = some result ↔
      ∃ answer, reply = some (.evaluated answer) ∧ result = resume answer board :=
  take?_call

@[simp] theorem take?_read {channel : String}
    {resume : Except IoError α → Board → Board × Worker α} :
    (call (.read channel) resume).take? board reply = some result ↔
      ∃ answer, reply = some (.found answer) ∧ result = resume answer board :=
  take?_call

@[simp] theorem take?_write {channel : String} {value : α}
    {resume : Except IoError Unit → Board → Board × Worker α} :
    (call (.write channel value) resume).take? board reply = some result ↔
      ∃ answer, reply = some (.wrote answer) ∧ result = resume answer board :=
  take?_call

@[simp] theorem take?_clock {resume : Instant → Board → Board × Worker α} :
    (call .clock resume).take? board reply = some result ↔
      ∃ now, reply = some (.told now) ∧ result = resume now board :=
  take?_call

@[simp] theorem take?_rest {id : Nat} {limit : Duration}
    {resume : Unit → Board → Board × Worker α} :
    (call (.rest id limit) resume).take? board reply = some result ↔
      reply = some .rested ∧ result = resume () board := by
  constructor
  · intro taken
    obtain ⟨_, replied, went⟩ := take?_call.mp taken
    exact ⟨replied, went⟩
  · rintro ⟨replied, went⟩
    exact take?_call.mpr ⟨(), replied, went⟩

end Next

namespace Worker

@[simp] theorem nestedTasks_nil : nestedTasks ([] : List (Nat × Command α)) = [] := rfl

@[simp] theorem nestedTasks_cons (id : Nat) (command : Command α)
    (rest : List (Nat × Command α)) :
    nestedTasks ((id, command) :: rest) = .safePoint :: .start id command :: nestedTasks rest :=
  rfl

/-- One step of a worker, given the reply to its call if it makes one. -/
def step? [Scalar α] (board : Board) (worker : Worker α) (reply : Option (Reply α)) :
    Option (Board × Worker α) :=
  (worker.next board).take? board reply

/-- What a worker notes of a task besides its agenda. -/
def noting (worker : Worker α) (board : Board) : Task α → Option (Reply α) → Worker α
  | .closeStep step description, _ => worker.closing step description
  | .stampRun, some (.told now) => { worker with startedAt := now }
  | .report, some (.told now) => { worker with report := some (worker.reportAt board now) }
  | _, _ => worker

end Worker

namespace Task

variable [Scalar α] (board : Board) (worker : Worker α)

/-- A task that succeeds, with the board after it and the tasks that it puts in its place. -/
inductive Spawns : Task α → Option (Reply α) → Board → List (Task α) → Prop where
  | safePoint (running : board.control.paused = false) (free : board.control.aborted = false) :
      Spawns .safePoint none board []
  | openStep (step : Nat) :
      Spawns (.openStep step) none { board with currentStep := step } []
  | announceStart (step id : Nat) (command : Command α) :
      Spawns (.announceStart step id command) none
        (board.publish (.stepStarted step command.description))
        [.start id command, .announceFinish step id]
  | start (id : Nat) (command : Command α)
      (fresh : (board.monitor id).status.canAdvance .running = true) :
      Spawns (.start id command) none (board.update id (·.advance .running)) [.enter id command]
  | enter (id : Nat) (command : Command α) :
      Spawns (.enter id command) none (board.enter id)
        (Worker.commandTasks id command ++ [.settle id command, .leave])
  | literal (id : Nat) (value : α) (purpose : Purpose α) :
      Spawns (.resolve id (.literal value) purpose) none board
        (Worker.purposeTasks id value purpose)
  | evaluated (id : Nat) (text : String) (purpose : Purpose α) (value : α) :
      Spawns (.resolve id (.expression text) purpose) (some (.evaluated (.ok value))) board
        (Worker.purposeTasks id value purpose)
  | baseline (id : Nat) (condition : Condition α) (desired initial : α) :
      Spawns (.baseline id condition desired) (some (.found (.ok initial))) board
        (Worker.awaitTasks id condition (condition.comparison.threshold desired initial))
  | write (channel : String) (value : α) :
      Spawns (.write channel value) (some (.wrote (.ok ()))) board []
  | installLatch (id : Nat) :
      Spawns (.installLatch id) none (board.update id Monitor.installLatch) []
  | stampStart (id : Nat) (now : Instant) :
      Spawns (.stampStart id) (some (.told now)) (board.update id (·.stampStart now)) []
  | armDelay (id : Nat) (duration : Duration) (now : Instant) :
      Spawns (.armDelay id duration) (some (.told now)) board
        [.heedAbort id (now + duration.nanoseconds)]
  | heedAbort (id : Nat) (deadline : Instant) (free : board.control.aborted = false) :
      Spawns (.heedAbort id deadline) none board [.checkDeadline id deadline]
  | deadlinePassed (id : Nat) (deadline now : Instant) (passed : deadline ≤ now) :
      Spawns (.checkDeadline id deadline) (some (.told now)) board []
  | deadlineAhead (id : Nat) (deadline now : Instant) (ahead : ¬ deadline ≤ now) :
      Spawns (.checkDeadline id deadline) (some (.told now)) board
        [.restUntil id deadline ((Duration.between now deadline).min worker.pollInterval)]
  | delayCut (id : Nat) (deadline : Instant) (limit : Duration)
      (cut : (board.monitor id).isCutShort = true) :
      Spawns (.restUntil id deadline limit) (some .rested) board []
  | delayGoesOn (id : Nat) (deadline : Instant) (limit : Duration)
      (uncut : (board.monitor id).isCutShort = false) :
      Spawns (.restUntil id deadline limit) (some .rested) board [.heedAbort id deadline]
  | armPoll (poll : Poll α) (now : Instant) :
      Spawns (.armPoll poll) (some (.told now)) board [.safePoint, .probe poll now]
  | satisfied (poll : Poll α) (since : Instant) (value : α)
      (holds : poll.isSatisfied value = true) :
      Spawns (.probe poll since) (some (.found (.ok value))) board []
  | limited (poll : Poll α) (since : Instant) (value : α) (limit : Duration)
      (fails : poll.isSatisfied value = false) (bounded : poll.limit = some limit) :
      Spawns (.probe poll since) (some (.found (.ok value))) board [.checkLimit poll since limit]
  | unlimited (poll : Poll α) (since : Instant) (value : α)
      (fails : poll.isSatisfied value = false) (unbounded : poll.limit = none) :
      Spawns (.probe poll since) (some (.found (.ok value))) board [.restPoll poll since]
  | withinLimit (poll : Poll α) (since : Instant) (limit : Duration) (now : Instant)
      (within : ¬ limit.nanoseconds ≤ now - since) :
      Spawns (.checkLimit poll since limit) (some (.told now)) board [.restPoll poll since]
  | pollCut (poll : Poll α) (since : Instant)
      (cut : (board.monitor poll.id).isCutShort = true) :
      Spawns (.restPoll poll since) (some .rested) board []
  | pollGoesOn (poll : Poll α) (since : Instant)
      (uncut : (board.monitor poll.id).isCutShort = false) :
      Spawns (.restPoll poll since) (some .rested) board [.safePoint, .probe poll since]
  | clearStart (id : Nat) :
      Spawns (.clearStart id) none (board.update id Monitor.clearStart) []
  | removeLatch (id : Nat) :
      Spawns (.removeLatch id) none (board.update id Monitor.removeLatch) []
  | round (id : Nat) (sweep : Sweep α) (body : List (Command α)) (iteration : Nat)
      (more : iteration < sweep.iterations) :
      Spawns (.iterate id sweep body iteration) none board
        (Worker.iterationTasks id sweep body iteration)
  | roundsOver (id : Nat) (sweep : Sweep α) (body : List (Command α)) (iteration : Nat)
      (ended : ¬ iteration < sweep.iterations) :
      Spawns (.iterate id sweep body iteration) none board []
  | nest (body : List (Command α)) :
      Spawns (.nest body) none (board.addCommands body)
        (Worker.nestedTasks (Board.numbered board.monitors.size body))
  | countUnit (id : Nat) (unit : WorkUnit α) :
      Spawns (.countUnit id unit) none { board with work := board.work.add 1 }
        [.announceWork (board.work.performed + 1)]
  | announceWork (performed : UInt64) :
      Spawns (.announceWork performed) none
        (board.publish (.workPerformed performed board.work.total)) []
  | settleLeaf (id : Nat) (command : Command α) (sound : worker.failure = none)
      (leaf : command.isComposite = false) :
      Spawns (.settle id command) none (board.update id (·.advance .completed))
        [.countUnit id (.leaf command)]
  | settle (id : Nat) (command : Command α)
      (silent : worker.failure.isSome = true ∨ command.isComposite = true) :
      Spawns (.settle id command) none
        (board.update id (·.advance (Worker.finalStatus worker.failure))) []
  | leave : Spawns .leave none board.leave []
  | announceFinish (step id : Nat) :
      Spawns (.announceFinish step id) none
        (board.publish (.stepFinished step (board.monitor id).status)) []
  | closeStep (step : Nat) (description : String) :
      Spawns (.closeStep step description) none board []
  | prepare (steps : List (Command α)) :
      Spawns (.prepare steps) none (board.addCommands steps)
        [.stampRun, .steps 1 (Board.numbered board.monitors.size steps)]
  | stampRun (now : Instant) : Spawns .stampRun (some (.told now)) board []
  | steps (step : Nat) (remaining : List (Nat × Command α)) :
      Spawns (.steps step remaining) none board (Worker.stepTasks step remaining)
  | clearStep : Spawns .clearStep none { board with currentStep := 0 } []
  | clearActive : Spawns .clearActive none { board with active := [] } []
  | report (now : Instant) :
      Spawns .report (some (.told now)) board
        [.setState (Worker.finalState worker.failure),
          .announce (.stateChanged (Worker.finalState worker.failure)),
          .announce (.finished (worker.reportAt board now))]
  | setState (state : RunState) :
      Spawns (.setState state) none { board with run := state } []
  | announce (event : Event) : Spawns (.announce event) none (board.publish event) []

/-- A task that fails with an error. -/
inductive Fails : Task α → Option (Reply α) → ScanError → Prop where
  | safePoint (aborted : board.control.aborted = true) : Fails .safePoint none .interrupted
  | refused (id : Nat) (command : Command α)
      (used : (board.monitor id).status.canAdvance .running = false) :
      Fails (.start id command) none (Worker.refusal (board.monitor id))
  | evaluated (id : Nat) (text : String) (purpose : Purpose α) (error : EvalError) :
      Fails (.resolve id (.expression text) purpose) (some (.evaluated (.error error)))
        (.expression error)
  | baseline (id : Nat) (condition : Condition α) (desired : α) (error : IoError) :
      Fails (.baseline id condition desired) (some (.found (.error error)))
        (.liveIo condition.channel error)
  | write (channel : String) (value : α) (error : IoError) :
      Fails (.write channel value) (some (.wrote (.error error))) (.liveIo channel error)
  | heedAbort (id : Nat) (deadline : Instant) (aborted : board.control.aborted = true) :
      Fails (.heedAbort id deadline) none .interrupted
  | probe (poll : Poll α) (since : Instant) (error : IoError) :
      Fails (.probe poll since) (some (.found (.error error))) (.liveIo poll.channel error)
  | timeout (poll : Poll α) (since : Instant) (limit : Duration) (now : Instant)
      (expired : limit.nanoseconds ≤ now - since) :
      Fails (.checkLimit poll since limit) (some (.told now))
        (.timeout poll.channel limit.seconds)

end Task

namespace Worker

variable [Scalar α] {board after : Board} {worker next : Worker α} {reply : Option (Reply α)}

/-- What a step comes to: the task at the head of the agenda succeeds or fails. -/
theorem step?_cases (stepped : worker.step? board reply = some (after, next)) :
    ∃ task rest, worker.agenda = task :: rest ∧
      ((∃ more, task.Spawns board worker reply after more ∧
          next = (worker.noting board task reply).proceed more) ∨
        ∃ error, task.Fails board reply error ∧ after = board ∧ next = worker.fail error) := by
  cases agenda : worker.agenda with
  | nil => simp [step?, Worker.next, agenda] at stepped
  | cons task rest =>
      refine ⟨task, rest, rfl, ?_⟩
      cases task
      -- the board and the reply decide between success and failure
      case safePoint =>
        cases aborted : board.control.aborted <;> cases paused : board.control.paused <;>
          simp [step?, Worker.next, agenda, RunControl.blocks, RunControl.verdict, aborted,
            paused] at stepped <;> obtain ⟨rfl, rfl, rfl⟩ := stepped
        · exact .inl ⟨_, .safePoint paused aborted, rfl⟩
        · exact .inr ⟨_, .safePoint aborted, rfl, rfl⟩
        · exact .inr ⟨_, .safePoint aborted, rfl, rfl⟩
      case start id command =>
        cases fresh : (board.monitor id).status.canAdvance .running <;>
          simp [step?, Worker.next, agenda, fresh] at stepped <;>
          obtain ⟨rfl, rfl, rfl⟩ := stepped
        · exact .inr ⟨_, .refused id command fresh, rfl, rfl⟩
        · exact .inl ⟨_, .start id command fresh, rfl⟩
      case heedAbort id deadline =>
        cases aborted : board.control.aborted <;>
          simp [step?, Worker.next, agenda, aborted] at stepped <;>
          obtain ⟨rfl, rfl, rfl⟩ := stepped
        · exact .inl ⟨_, .heedAbort id deadline aborted, rfl⟩
        · exact .inr ⟨_, .heedAbort id deadline aborted, rfl, rfl⟩
      case resolve id quantity purpose =>
        cases quantity with
        | literal value =>
            simp [step?, Worker.next, agenda] at stepped
            obtain ⟨rfl, rfl, rfl⟩ := stepped
            exact .inl ⟨_, .literal id value purpose, rfl⟩
        | expression text =>
            simp [step?, Worker.next, agenda] at stepped
            obtain ⟨_ | value, rfl, rfl, rfl⟩ := stepped
            · exact .inr ⟨_, .evaluated id text purpose _, rfl, rfl⟩
            · exact .inl ⟨_, .evaluated id text purpose value, rfl⟩
      all_goals simp [step?, Worker.next, agenda] at stepped
      case baseline id condition desired =>
        obtain ⟨_ | initial, rfl, stepped⟩ := stepped
        · obtain ⟨rfl, rfl⟩ := Prod.mk.inj stepped
          exact .inr ⟨_, .baseline id condition desired _, rfl, rfl⟩
        · obtain ⟨rfl, rfl⟩ := Prod.mk.inj stepped
          exact .inl ⟨_, .baseline id condition desired initial, rfl⟩
      case write channel value =>
        obtain ⟨_ | _, rfl, stepped⟩ := stepped
        · obtain ⟨rfl, rfl⟩ := Prod.mk.inj stepped
          exact .inr ⟨_, .write channel value _, rfl, rfl⟩
        · obtain ⟨rfl, rfl⟩ := Prod.mk.inj stepped
          exact .inl ⟨_, .write channel value, rfl⟩
      case checkDeadline id deadline =>
        obtain ⟨now, rfl, rfl, rfl⟩ := stepped
        by_cases passed : deadline ≤ now
        · exact .inl ⟨_, .deadlinePassed id deadline now passed,
            by simp [checkedDeadline, passed, noting]⟩
        · exact .inl ⟨_, .deadlineAhead id deadline now passed,
            by simp [checkedDeadline, passed, noting]⟩
      case restUntil id deadline limit =>
        obtain ⟨rfl, rfl, rfl⟩ := stepped
        cases cut : (after.monitor id).isCutShort
        · exact .inl ⟨_, .delayGoesOn id deadline limit cut, rfl⟩
        · exact .inl ⟨_, .delayCut id deadline limit cut, rfl⟩
      case probe poll since =>
        obtain ⟨_ | value, rfl, rfl, rfl⟩ := stepped
        · exact .inr ⟨_, .probe poll since _, rfl, rfl⟩
        · cases holds : poll.isSatisfied value
          · cases limit : poll.limit with
            | none =>
                exact .inl ⟨_, .unlimited poll since value holds limit,
                  by simp [probed, holds, limit, noting]⟩
            | some limit' =>
                exact .inl ⟨_, .limited poll since value limit' holds limit,
                  by simp [probed, holds, limit, noting]⟩
          · exact .inl ⟨_, .satisfied poll since value holds, by simp [probed, holds, noting]⟩
      case checkLimit poll since limit =>
        obtain ⟨now, rfl, rfl, rfl⟩ := stepped
        by_cases expired : limit.nanoseconds ≤ now - since
        · exact .inr ⟨_, .timeout poll since limit now expired, rfl,
            by simp [checkedLimit, expired]⟩
        · exact .inl ⟨_, .withinLimit poll since limit now expired,
            by simp [checkedLimit, expired, noting]⟩
      case restPoll poll since =>
        obtain ⟨rfl, rfl, rfl⟩ := stepped
        cases cut : (after.monitor poll.id).isCutShort
        · exact .inl ⟨_, .pollGoesOn poll since cut, rfl⟩
        · exact .inl ⟨_, .pollCut poll since cut, rfl⟩
      case iterate id sweep body iteration =>
        by_cases more : iteration < sweep.iterations <;> simp [more] at stepped <;>
          obtain ⟨rfl, rfl, rfl⟩ := stepped
        · exact .inl ⟨_, .round id sweep body iteration more, rfl⟩
        · exact .inl ⟨_, .roundsOver id sweep body iteration more, rfl⟩
      case settle id command =>
        obtain ⟨rfl, rfl, rfl⟩ := stepped
        cases sound : worker.failure with
        | some error =>
            exact .inl ⟨[], sound ▸ .settle id command (.inl (by simp [sound])),
              by simp [noting]⟩
        | none =>
            cases composite : command.isComposite
            · exact .inl ⟨_, .settleLeaf id command sound composite, by simp [noting]⟩
            · exact .inl ⟨[], sound ▸ .settle id command (.inr composite), by simp [noting]⟩
      case armDelay | armPoll | stampStart | stampRun | report =>
        obtain ⟨now, rfl, rfl, rfl⟩ := stepped
        exact .inl ⟨_, by constructor, rfl⟩
      -- the other tasks succeed whatever the board shows
      all_goals
        obtain ⟨rfl, rfl, rfl⟩ := stepped
        exact .inl ⟨_, by constructor, rfl⟩

variable {task : Task α} {rest more : List (Task α)} {error : ScanError}

/-- A task that can succeed makes a step when it is at the head of the agenda. -/
theorem step?_of_spawns (agenda : worker.agenda = task :: rest)
    (spawns : task.Spawns board worker reply after more) :
    worker.step? board reply = some (after, (worker.noting board task reply).proceed more) := by
  cases spawns
  case deadlinePassed id deadline now passed =>
    have checked : worker.checkedDeadline id deadline now = worker.proceed [] := if_pos passed
    simp [step?, Worker.next, agenda, checked, noting]
  case deadlineAhead id deadline now ahead =>
    simp [step?, Worker.next, agenda, checkedDeadline, ahead, noting]
  case withinLimit poll since limit now within =>
    simp [step?, Worker.next, agenda, checkedLimit, within, noting]
  case roundsOver id sweep body iteration ended =>
    simp [step?, Worker.next, agenda, ended, noting]
  case settle id command silent =>
    have none : (worker.failure.isNone && !command.isComposite) = false := by
      rcases silent with failed | composite
      · simp [Option.isSome_iff_ne_none.mp failed]
      · simp [composite]
    simp [step?, Worker.next, agenda, none, noting]
  case settleLeaf id command sound leaf =>
    simp [step?, Worker.next, agenda, sound, leaf, noting, finalStatus]
  case stampRun | report =>
    simp only [step?, Worker.next, agenda, Next.take?_clock]
    exact ⟨_, rfl, rfl⟩
  all_goals
    simp_all [step?, Worker.next, RunControl.blocks, RunControl.verdict, noting, probed, resolved]

/-- A task that can fail makes a step when it is at the head of the agenda. -/
theorem step?_of_fails (agenda : worker.agenda = task :: rest)
    (fails : task.Fails board reply error) :
    worker.step? board reply = some (board, worker.fail error) := by
  cases fails
  case timeout poll since limit now expired =>
    have checked : worker.checkedLimit poll since limit now =
        worker.fail (.timeout poll.channel limit.seconds) := if_pos expired
    simp [step?, Worker.next, agenda, checked]
  all_goals
    simp_all [step?, Worker.next, RunControl.blocks, RunControl.verdict, probed, resolved]

/-- Only a request to pause that no abort overrides holds a worker. -/
theorem next_ne_held (free : board.control.blocks = false) : worker.next board ≠ .held := by
  cases agenda : worker.agenda with
  | nil => simp [next, agenda]
  | cons task rest =>
      cases task <;> simp only [next, agenda, free, Bool.false_eq_true, if_false] <;>
        (repeat' split) <;> nofun

/-- A worker that has something to do and is not held can make a step. -/
theorem exists_step? (free : worker.next board ≠ .held) (busy : worker.agenda ≠ []) :
    ∃ reply, (worker.step? board reply).isSome = true := by
  have started : worker.next board ≠ .done := by
    cases agenda : worker.agenda with
    | nil => exact absurd agenda busy
    | cons task rest =>
        cases task <;> simp only [next, agenda] <;> (repeat' split) <;> nofun
  unfold step?
  cases doing : worker.next board with
  | done => exact absurd doing started
  | held => exact absurd doing free
  | act => exact ⟨none, rfl⟩
  | call query resume =>
      cases query with
      | evaluate text => exact ⟨some (.evaluated (.error ⟨text, ""⟩)), rfl⟩
      | read channel => exact ⟨some (.found (.error (.unknownChannel channel))), rfl⟩
      | write channel value => exact ⟨some (.wrote (.ok ())), rfl⟩
      | clock => exact ⟨some (.told 0), rfl⟩
      | rest id limit => exact ⟨some .rested, rfl⟩

end Worker

/-! ## Errands -/

/-- Whether a task is an errand: something that a step does by itself, apart from its beginning and
its end, and that leads to other errands only. -/
def Task.isErrand : Task α → Bool
  | .safePoint | .resolve .. | .baseline .. | .write .. | .installLatch _ | .stampStart _
  | .armDelay .. | .heedAbort .. | .checkDeadline .. | .restUntil .. | .armPoll _ | .probe ..
  | .checkLimit .. | .restPoll .. | .clearStart _ | .removeLatch _ => true
  | _ => false

namespace Worker

variable {task : Task α}

theorem isErrand_of_mem_pollTasks {poll : Poll α} (member : task ∈ pollTasks poll) :
    task.isErrand = true := by
  simp only [pollTasks, List.mem_cons, List.not_mem_nil, or_false] at member
  rcases member with rfl | rfl | rfl | rfl | rfl <;> rfl

theorem isErrand_of_mem_writeTasks {id : Nat} {channel : String} {completion : Completion α}
    {value : α} (member : task ∈ writeTasks id channel completion value) :
    task.isErrand = true := by
  rcases List.mem_cons.mp member with rfl | member
  · rfl
  · split at member
    · exact isErrand_of_mem_pollTasks member
    · cases member

theorem isErrand_of_mem_purposeTasks {id : Nat} {value : α} {purpose : Purpose α}
    (member : task ∈ purposeTasks id value purpose) : task.isErrand = true := by
  cases purpose with
  | assign => exact isErrand_of_mem_writeTasks member
  | await =>
      simp only [purposeTasks] at member
      split at member
      · cases List.mem_singleton.mp member
        rfl
      · exact isErrand_of_mem_pollTasks member

/-- What is nothing for some tasks is nothing for a list of them. -/
theorem flatMap_eq_nil_of_forall {β : Type} {due : Task α → List β} {kind : Task α → Bool}
    {tasks : List (Task α)} (idle : ∀ task : Task α, kind task = true → due task = [])
    (all : ∀ task ∈ tasks, kind task = true) : tasks.flatMap due = [] := by
  rw [List.flatMap_eq_nil_iff]
  exact fun task member => idle task (all task member)

end Worker

/-- An errand leads to errands. -/
theorem Task.isErrand_of_spawns [Scalar α] {board after : Board} {worker : Worker α}
    {task : Task α} {reply : Option (Reply α)} {more : List (Task α)}
    (errand : task.isErrand = true) (spawns : task.Spawns board worker reply after more) :
    ∀ next ∈ more, next.isErrand = true := by
  intro next member
  cases spawns with
  | literal | evaluated => exact Worker.isErrand_of_mem_purposeTasks member
  | baseline => exact Worker.isErrand_of_mem_pollTasks member
  | armDelay | heedAbort | deadlineAhead | delayGoesOn | armPoll | limited | unlimited
  | withinLimit | pollGoesOn =>
      simp only [List.mem_cons, List.not_mem_nil, or_false] at member
      rcases member with rfl | rfl <;> rfl
  | _ => first | exact absurd errand Bool.false_ne_true | cases member

/-! ## Tasks of one step -/

/-- Whether a task belongs to a single step: an errand, or a task that takes a step from its start
to its end and through the steps nested in it. -/
def Task.isNested : Task α → Bool
  | .start .. | .enter .. | .iterate .. | .nest _ | .countUnit .. | .announceWork _ | .settle ..
  | .leave => true
  | task => task.isErrand

theorem Task.isNested_of_isErrand {task : Task α} (errand : task.isErrand = true) :
    task.isNested = true := by
  cases task <;> first | rfl | exact errand

namespace Worker

variable {task : Task α}

theorem isNested_of_mem_nestedTasks {commands : List (Nat × Command α)}
    (member : task ∈ nestedTasks commands) : task.isNested = true := by
  simp only [nestedTasks, List.mem_flatMap, List.mem_cons, List.not_mem_nil, or_false] at member
  obtain ⟨_, _, rfl | rfl⟩ := member <;> rfl

theorem isNested_of_mem_commandTasks {id : Nat} {command : Command α}
    (member : task ∈ commandTasks id command) : task.isNested = true := by
  cases command with
  | group => exact isNested_of_mem_nestedTasks member
  | comment => cases member
  | delay | set | wait | loop =>
      simp only [commandTasks, List.mem_cons, List.not_mem_nil, or_false] at member
      rcases member with rfl | rfl | rfl | rfl | rfl <;> rfl

theorem isNested_of_mem_iterationTasks [Scalar α] {id : Nat} {sweep : Sweep α}
    {body : List (Command α)} {iteration : Nat}
    (member : task ∈ iterationTasks id sweep body iteration) : task.isNested = true := by
  simp only [iterationTasks, List.mem_append, List.mem_cons, List.not_mem_nil, or_false] at member
  rcases member with (rfl | member) | rfl | rfl | rfl
  · rfl
  · exact Task.isNested_of_isErrand (isErrand_of_mem_writeTasks member)
  all_goals rfl

end Worker

/-- A task of one step leads to tasks of that step. -/
theorem Task.isNested_of_spawns [Scalar α] {board after : Board} {worker : Worker α}
    {task : Task α} {reply : Option (Reply α)} {more : List (Task α)}
    (nested : task.isNested = true) (spawns : task.Spawns board worker reply after more) :
    ∀ next ∈ more, next.isNested = true := by
  intro next member
  cases errand : task.isErrand
  case true => exact isNested_of_isErrand (isErrand_of_spawns errand spawns next member)
  cases spawns with
  | nest => exact Worker.isNested_of_mem_nestedTasks member
  | round => exact Worker.isNested_of_mem_iterationTasks member
  | enter =>
      rcases List.mem_append.mp member with member | member
      · exact Worker.isNested_of_mem_commandTasks member
      · simp only [List.mem_cons, List.not_mem_nil, or_false] at member
        rcases member with rfl | rfl <;> rfl
  | start | countUnit | settleLeaf =>
      cases List.mem_singleton.mp member
      rfl
  | _ => first
    | exact absurd errand.symm Bool.false_ne_true
    | exact absurd nested Bool.false_ne_true
    | cases member

end Scan
