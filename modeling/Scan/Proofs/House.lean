import Scan.Daemon
import Scan.Proofs.Step

/-!
# Houses

A house is a daemon with all that goes on in it: the requests of its clients on their way to an
answer, and the workers of all the runs that were ever started. A move is one atomic step of any of
them, and a season is any sequence of moves. A request that concerns the job has the job to itself
for as long as it needs it; a worker needs nobody's leave.
-/

namespace Scan

open Json

/-- What a request that has the job to itself does next. -/
inductive Duty where
  /-- Looks whether the job is over. -/
  | vet (sequence : Sequence)
  /-- Looks for the state of a job that is not over. -/
  | decline
  /-- Compiles the sequence and starts its run. -/
  | start (sequence : Sequence)
  /-- Puts the run in the place of the job. -/
  | install (run : Nat) (totalWork : UInt64)
  /-- Makes one access of a control call. -/
  | call (call : Call)
  /-- Looks at the state of the job. -/
  | look

/-- How far a request has come. -/
inductive Errand.Stage where
  | received
  | atJob (duty : Duty)
  /-- Has seen the progress of a run, if there is a job, and is still to see the last report. -/
  | atReport (shown : Option (Nat × Progress))
  | answered (answer : Except Daemon.Refusal Value)

/-- A request on its way to an answer. -/
structure Errand where
  request : Request
  stage : Errand.Stage := .received

/-- What a request was answered, if it was not refused. -/
def Errand.answer? (errand : Errand) : Option Value :=
  match errand.stage with
  | .answered (.ok value) => some value
  | _ => none

/-- A daemon and all that goes on in it. -/
structure House where
  pollInterval : Duration
  profile : Profile Float
  plant : Plant Float
  /-- The jobs of all runs that were started, oldest first. -/
  runs : List Job := []
  /-- The number of the run that is the job. -/
  slot : Option Nat := none
  lastReport : Option RunReport := none
  /-- All requests that came in, in order. -/
  errands : List Errand := []

/-- One atomic step of anyone. -/
inductive Move where
  /-- A client sends a request. -/
  | receive (request : Request)
  /-- A step of a request; `runId` is for a run that it may start. -/
  | serve (position : Nat) (now : Instant) (runId : String)
  /-- A step of the worker of a run. -/
  | work (run : Nat) (now : Instant)

/-- A daemon as a house, before any request. -/
def Daemon.house (daemon : Daemon) : House where
  pollInterval := daemon.pollInterval
  profile := daemon.profile
  plant := daemon.plant
  runs := daemon.job.toList
  slot := daemon.job.map fun _ => 0
  lastReport := daemon.lastReport

/-! ## Answers -/

/-- The answer to a control call. -/
def stateAnswer (state : RunState) : Value :=
  .object [("state", .string state.name)]

/-- The answer to the request to skip. -/
def skipAnswer (accepted : Bool) : Value :=
  .object [("skipped", .bool accepted)]

/-- The answer to a request that starts a run. -/
def acceptance (totalWork : UInt64) : Value :=
  .object [("accepted", .bool true), ("total_work", .word totalWork)]

/-- The answer to a request that would start a run next to another one. -/
def busyAnswer (state : RunState) : Except Daemon.Refusal Value :=
  .error (.scan (.busy ("sequence is " ++ state.name)))

/-- The answer to the request for the status. -/
def statusAnswer (progress : Option Progress) (lastReport : Option RunReport) : Value :=
  .object [("progress", optionalValue Progress.toValue progress),
    ("last_report", optionalValue RunReport.toValue lastReport)]

/-- What a request begins with once it has the job to itself, if it needs that. -/
def Request.duty? (request : Request) : Option Duty :=
  match request.method with
  | "submit" => (Daemon.sequenceParam request.params).toOption.map .vet
  | "pause" => some (.call .pause)
  | "resume" => some (.call .resume)
  | "abort" => some (.call .abort)
  | "skip" => some (.call .skip)
  | "status" => some (.call .progress)
  | _ => none

/-- Where a request goes from an access of a control call to a run. -/
def Call.Rest.stage (run : Nat) : Call.Rest → Errand.Stage
  | .more next => .atJob (.call next)
  | .result .done => .atJob .look
  | .result (.skipped accepted) => .answered (.ok (skipAnswer accepted))
  | .result (.progress found) => .atReport (some (run, found))

/-- Where a request goes from a control call when there is no job. -/
def Call.vainStage : Call → Errand.Stage
  | .skip => .answered (.ok (skipAnswer false))
  | .progress => .atReport none
  | _ => .answered (.ok (stateAnswer .idle))

/-- What a request that has the job to itself does next. -/
def Errand.Stage.duty? : Errand.Stage → Option Duty
  | .atJob duty => some duty
  | _ => none

namespace House

/-! ## Moves -/

/-- The run that is the job, with its number. -/
def current? (house : House) : Option (Nat × Job) := do
  let run ← house.slot
  let job ← house.runs[run]?
  return (run, job)

/-- The state of the job. -/
def state (house : House) : RunState :=
  house.current?.elim .idle fun current => current.2.sequencer.state

/-- The daemon as a request finds it. -/
def front (house : House) : Daemon where
  pollInterval := house.pollInterval
  profile := house.profile
  plant := house.plant
  job := house.current?.map Prod.snd
  lastReport := house.lastReport

/-- The daemon as the worker of a run finds it. -/
def beside (house : House) (run : Nat) : Daemon :=
  { house.front with job := house.runs[run]? }

/-- What the requests that have the job to themselves do next. -/
def duties (house : House) : List Duty :=
  house.errands.filterMap fun errand => errand.stage.duty?

/-- The house with a request at a stage. -/
def withStage (house : House) (position : Nat) (request : Request) (stage : Errand.Stage) :
    House :=
  { house with errands := house.errands.set position ⟨request, stage⟩ }

/-- The house with a run as its worker left it to the daemon. -/
def withRun (house : House) (run : Nat) (daemon : Daemon) : House :=
  { house with
    plant := daemon.plant
    lastReport := daemon.lastReport
    runs := daemon.job.elim house.runs (house.runs.set run) }

/-- What comes of a duty, and where the request goes from it. -/
def attend (house : House) (now : Instant) (runId : String) : Duty → House × Errand.Stage
  | .vet sequence =>
      match house.current? with
      | some (_, job) =>
          if job.isOver then (house, .atJob (.start sequence)) else (house, .atJob .decline)
      | none => (house, .atJob (.start sequence))
  | .decline => (house, .answered (busyAnswer house.state))
  | .start sequence =>
      match Sequencer.ofSequence sequence house.pollInterval with
      | .ok sequencer =>
          let job : Job := { sequencer := sequencer, runId := runId }
          ({ house with runs := house.runs ++ [job] },
            .atJob (.install house.runs.length sequencer.totalWork))
      | .error error => (house, .answered (.error (.scan error)))
  | .install run totalWork =>
      ({ house with slot := some run }, .answered (.ok (acceptance totalWork)))
  | .call call =>
      match house.current? with
      | some (run, job) =>
          let stepped := call.step job.sequencer.totalWork now job.sequencer.board
          let after : Job := { job with sequencer := job.sequencer.withBoard stepped.1 }
          ({ house with runs := house.runs.set run after }, stepped.2.stage run)
      | none => (house, call.vainStage)
  | .look => (house, .answered (.ok (stateAnswer house.state)))

/-- A step of a request, if it can make one: it waits for the job, unless it does not concern it;
it has the job to itself until it is done with it. -/
def serve? (house : House) (position : Nat) (now : Instant) (runId : String) (errand : Errand) :
    Option House :=
  match errand.stage with
  | .received =>
      match errand.request.duty? with
      | some duty =>
          if house.duties.isEmpty then some (house.withStage position errand.request (.atJob duty))
          else none
      | none =>
          match house.front.perform now runId errand.request with
          | .ok (value, daemon) =>
              let after : House := { house with plant := daemon.plant }
              some (after.withStage position errand.request (.answered (.ok value)))
          | .error refusal =>
              some (house.withStage position errand.request (.answered (.error refusal)))
  | .atJob duty =>
      let attended := house.attend now runId duty
      some (attended.1.withStage position errand.request attended.2)
  | .atReport shown =>
      some (house.withStage position errand.request
        (.answered (.ok (statusAnswer (shown.map Prod.snd) house.lastReport))))
  | .answered _ => none

/-- What comes of a move, if it is possible. -/
def move? (house : House) : Move → Option House
  | .receive request => some { house with errands := house.errands ++ [⟨request, .received⟩] }
  | .serve position now runId =>
      house.errands[position]?.bind (house.serve? position now runId)
  | .work run now =>
      match (house.beside run).live now with
      | .moved daemon | .resting _ _ daemon => some (house.withRun run daemon)
      | .idle | .held => none

end House

/-- A move with the house in which it takes place. -/
structure Happening where
  house : House
  move : Move

namespace House

/-- What happens on the way from one house to another. -/
inductive Season (start : House) : List Happening → House → Prop where
  | opening : Season start [] start
  | move {past : List Happening} {house next : House} {move : Move}
      (season : Season start past house) (moved : house.move? move = some next) :
      Season start (past ++ [⟨house, move⟩]) next

/-- A season goes on in another one that begins where it ends. -/
theorem Season.append {start middle house : House} {first second : List Happening}
    (season : start.Season first middle) (later : middle.Season second house) :
    start.Season (first ++ second) house := by
  induction later with
  | opening => simpa using season
  | move _ moved ih =>
      rw [← List.append_assoc]
      exact .move ih moved

/-- Makes some moves, if they are possible one after another. -/
def play (house : House) : List Move → Option (List Happening × House)
  | [] => some ([], house)
  | move :: rest => do
      let next ← house.move? move
      let (happenings, last) ← next.play rest
      return (⟨house, move⟩ :: happenings, last)

theorem season_of_play {moves : List Move} {house last : House} {happenings : List Happening}
    (played : house.play moves = some (happenings, last)) : house.Season happenings last := by
  induction moves generalizing house happenings with
  | nil =>
      cases played
      exact .opening
  | cons move rest ih =>
      simp only [play, Option.bind_eq_bind, Option.bind_eq_some_iff, Option.pure_def] at played
      obtain ⟨next, moved, ⟨later, last⟩, played, made⟩ := played
      cases made
      exact (Season.move .opening moved).append (ih played)

end House

/-! ## Rehearsals -/

/-- A configuration without channels. -/
def Config.bare : Config Float where
  pollIntervalMs := 10
  logging := {
    verbose := false
    format := { showTime := false, location := { showFile := false, showLine := false } }
    levels := {} }

/-- The request to run a sequence. -/
def Request.submission (sequence : Sequence) : Request where
  id := "client"
  method := "submit"
  params := .object [("sequence", sequence.toValue)]

/-- A request without parameters. -/
def Request.plain (method : String) : Request where
  id := "client"
  method := method

/-- A request comes in as the next one at a position, and makes its first steps. -/
def Move.asking (request : Request) (position steps : Nat) (runId : String) : List Move :=
  .receive request :: List.replicate steps (.serve position 0 runId)

namespace House

/-- The daemon of the configuration without channels, before any request. -/
def bare : House :=
  (Daemon.ofConfig Config.bare 0).house

/-- Makes some moves in a bare house and tests what comes of them. -/
def rehearse (moves : List Move) (test : List Happening → House → Bool) : Bool :=
  match bare.play moves with
  | some (past, house) => test past house
  | none => false

theorem exists_of_rehearse {moves : List Move} {test : List Happening → House → Bool}
    (passed : rehearse moves test = true) :
    ∃ past house, bare.Season past house ∧ test past house = true := by
  unfold rehearse at passed
  split at passed
  · rename_i past house played
    exact ⟨past, house, season_of_play played, passed⟩
  · cases passed

/-- Makes some moves in a bare house up to a moment, then one move and others after it, and tests
what comes of them. -/
def rehearseAround (before : List Move) (move : Move) (after : List Move)
    (test : List Happening → House → House → List Happening → House → Bool) : Bool :=
  rehearse before fun past house =>
    match house.move? move with
    | some next =>
        match next.play after with
        | some (future, last) => test past house next future last
        | none => false
    | none => false

theorem exists_of_rehearseAround {before after : List Move} {move : Move}
    {test : List Happening → House → House → List Happening → House → Bool}
    (passed : rehearseAround before move after test = true) :
    ∃ past house next future last, bare.Season past house ∧ house.move? move = some next ∧
      next.Season future last ∧ test past house next future last = true := by
  obtain ⟨past, house, season, goesOn⟩ := exists_of_rehearse passed
  split at goesOn
  · rename_i next moved
    split at goesOn
    · rename_i future last played
      exact ⟨past, house, next, future, last, season, moved, season_of_play played, goesOn⟩
    · cases goesOn
  · cases goesOn

end House

/-! ## What a move can do -/

namespace Worker

variable {α : Type} [Scalar α]

/-- What comes of a moment of a worker: it makes a step, unless it is held or done. -/
inductive Lives (worker : Worker α) (station : Station α) : Moment α → Station α → Prop where
  | ended (done : worker.agenda = []) : Lives worker station .over station
  | held (held : worker.next station.board = .held) : Lives worker station .held station
  | moved {reply : Option (Reply α)} {board : Board} {next : Worker α} {plant : Plant α}
      (stepped : worker.step? station.board reply = some (board, next)) :
      Lives worker station (.moved next) ⟨board, plant⟩
  | resting (id : Nat) (limit : Duration) {wake : Board → Board × Worker α}
      (stepped : worker.step? station.board (some .rested) = some (wake station.board)) :
      Lives worker station (.resting id limit wake) station

theorem agenda_eq_nil_of_done {board : Board} {worker : Worker α}
    (done : worker.next board = .done) : worker.agenda = [] := by
  cases agenda : worker.agenda with
  | nil => rfl
  | cons task rest =>
      simp only [next, agenda] at done
      split at done <;> (try split at done) <;> (try split at done) <;> cases done

/-- A moment of a worker at a station is one of these. -/
theorem lives_of_run {evaluate : String → Except EvalError α} {now : Instant} {worker : Worker α}
    {station after : Station α} {moment : Moment α}
    (lived : (worker.live (Station.surroundings evaluate now)).run station = (moment, after)) :
    worker.Lives station moment after := by
  simp only [live, Station.surroundings, bind_pure_comp, bind_map_left, pure_bind, bind_assoc,
    StateT.run_bind, StateT.run_get] at lived
  cases next : worker.next station.board with
  | done =>
      simp only [next, StateT.run_pure] at lived
      cases lived
      exact .ended (agenda_eq_nil_of_done next)
  | held =>
      simp only [next, StateT.run_pure] at lived
      cases lived
      exact .held next
  | act board after =>
      simp only [next, StateT.run_map, StateT.run_modify, map_pure] at lived
      cases lived
      exact .moved (by rw [step?, next]; exact Next.take?_act.mpr ⟨rfl, rfl⟩)
  | call query resume =>
      cases query with
      | rest id limit =>
          simp only [next, StateT.run_pure] at lived
          cases lived
          exact .resting id limit (by rw [step?, next]; rfl)
      | clock | evaluate | read =>
          simp only [next] at lived
          cases lived
          exact .moved (by rw [step?, next]; exact Next.take?_call.mpr ⟨_, rfl, rfl⟩)
      | write channel value =>
          cases wrote : station.plant.write channel value now <;>
            simp only [next, wrote, StateT.run_bind, StateT.run_get, StateT.run_map,
              StateT.run_modify, StateT.run_pure, pure_bind, map_pure] at lived <;> cases lived <;>
            exact .moved (by rw [step?, next]; exact Next.take?_call.mpr ⟨_, rfl, rfl⟩)

end Worker

/-- What the worker of a run does to its job and to the last report. -/
inductive Job.Advances (job : Job) (lastReport : Option RunReport) :
    Job → Option RunReport → Prop where
  | begins {claimed : Sequencer Float} {worker : Worker Float} (pending : job.phase = .pending)
      (begun : job.sequencer.beginRun job.runId = .ok (claimed, worker)) :
      Advances job lastReport
        { job with
          sequencer := job.sequencer.withBoard claimed.board, phase := .executing worker }
        lastReport
  | refused {error : ScanError} (pending : job.phase = .pending)
      (refused : job.sequencer.beginRun job.runId = .error error) :
      Advances job lastReport { job with phase := .ended } lastReport
  | works {worker next : Worker Float} {reply : Option (Reply Float)} {board : Board}
      (executing : job.phase = .executing worker)
      (stepped : worker.step? job.sequencer.board reply = some (board, next)) :
      Advances job lastReport
        { job with sequencer := job.sequencer.withBoard board, phase := .executing next }
        lastReport
  | stores {worker : Worker Float} (executing : job.phase = .executing worker)
      (done : worker.agenda = []) :
      Advances job lastReport { job with phase := .closing } (worker.report.or lastReport)
  | leaves (closing : job.phase = .closing) :
      Advances job lastReport { job with phase := .ended } lastReport

/-- A request that needs the job begins by looking at it or by a control call. -/
theorem Request.duty?_cases {request : Request} {duty : Duty}
    (concerns : request.duty? = some duty) :
    (∃ sequence, duty = .vet sequence) ∨ ∃ call, duty = .call call := by
  unfold duty? at concerns
  split at concerns
  · obtain ⟨sequence, -, rfl⟩ := Option.map_eq_some_iff.mp concerns
    exact .inl ⟨sequence, rfl⟩
  all_goals cases concerns
  all_goals exact .inr ⟨_, rfl⟩

namespace House

theorem current?_eq_some {house : House} {run : Nat} {job : Job} :
    house.current? = some (run, job) ↔ house.slot = some run ∧ house.runs[run]? = some job := by
  cases slot : house.slot with
  | none => simp [current?, slot]
  | some other =>
      simp only [current?, slot, Option.bind_eq_bind, Option.bind_some, Option.bind_eq_some_iff,
        Option.pure_def, Option.some.injEq, Prod.mk.injEq]
      constructor
      · rintro ⟨_, found, rfl, rfl⟩
        exact ⟨rfl, found⟩
      · rintro ⟨rfl, found⟩
        exact ⟨job, found, rfl, rfl⟩

/-- Nothing that a request does with the job to itself touches the other requests. -/
theorem errands_attend (house : House) (now : Instant) (runId : String) (duty : Duty) :
    (house.attend now runId duty).1.errands = house.errands := by
  cases duty <;> simp only [attend] <;> (try split) <;> (try split) <;> rfl

/-- Only a worker leaves a report. -/
theorem lastReport_attend (house : House) (now : Instant) (runId : String) (duty : Duty) :
    (house.attend now runId duty).1.lastReport = house.lastReport := by
  cases duty <;> simp only [attend] <;> (try split) <;> (try split) <;> rfl

/-- The house with another plant. -/
def withPlant (house : House) (plant : Plant Float) : House :=
  { house with plant := plant }

/-- What comes of a move. -/
inductive Change (house : House) (move : Move) (next : House) : Prop where
  | receives (request : Request) (moves : move = .receive request)
      (changed : next = { house with errands := house.errands ++ [⟨request, .received⟩] })
  | enters {position : Nat} {now : Instant} {runId : String} {request : Request} {duty : Duty}
      (moves : move = .serve position now runId)
      (found : house.errands[position]? = some ⟨request, .received⟩)
      (concerns : request.duty? = some duty) (free : house.duties = [])
      (changed : next = house.withStage position request (.atJob duty))
  | attends {position : Nat} {now : Instant} {runId : String} {request : Request} {duty : Duty}
      (moves : move = .serve position now runId)
      (found : house.errands[position]? = some ⟨request, .atJob duty⟩)
      (changed : next = (house.attend now runId duty).1.withStage position request
        (house.attend now runId duty).2)
  | answers {position : Nat} {now : Instant} {runId : String} {errand : Errand}
      {answer : Except Daemon.Refusal Value} (plant : Plant Float)
      (moves : move = .serve position now runId) (found : house.errands[position]? = some errand)
      (away : errand.stage.duty? = none)
      (changed : next =
        (house.withPlant plant).withStage position errand.request (.answered answer))
  | works {run : Nat} {now : Instant} {job after : Job} {lastReport : Option RunReport}
      (plant : Plant Float) (moves : move = .work run now) (found : house.runs[run]? = some job)
      (advances : job.Advances house.lastReport after lastReport)
      (changed : next = { house.withPlant plant with
        runs := house.runs.set run after, lastReport := lastReport })

variable {house next : House}

/-- A worker moves its own run on, and may leave a report. -/
theorem change_of_work {run : Nat} {now : Instant}
    (moved : house.move? (.work run now) = some next) : house.Change (.work run now) next := by
  simp only [move?, Daemon.live, beside] at moved
  cases found : house.runs[run]? with
  | none => simp [found] at moved
  | some job =>
      simp only [found] at moved
      cases phase : job.phase with
      | pending =>
          simp only [phase] at moved
          cases begun : job.sequencer.beginRun job.runId <;> simp only [begun] at moved <;>
            cases moved
          · exact .works house.plant rfl found (.refused phase begun) rfl
          · exact .works house.plant rfl found (.begins phase begun) rfl
      | executing worker =>
          simp only [phase] at moved
          generalize lived : (worker.live (Station.surroundings evaluateLiteral now)).run
            ⟨job.sequencer.board, house.front.plant⟩ = result at moved
          obtain ⟨moment, station⟩ := result
          cases Worker.lives_of_run lived with
          | ended done =>
              cases moved
              exact .works house.plant rfl found (.stores phase done) rfl
          | held => cases moved
          | @moved _ _ _ plant stepped =>
              cases moved
              exact .works plant rfl found (.works phase stepped) rfl
          | resting _ _ stepped =>
              cases moved
              exact .works house.plant rfl found (.works phase stepped) rfl
      | closing =>
          simp only [phase] at moved
          cases moved
          exact .works house.plant rfl found (.leaves phase) rfl
      | ended => simp [phase] at moved

/-- A run that is not over can be moved on at any time, unless its worker is held. -/
theorem exists_move?_work {run : Nat} {job : Job} (found : house.runs[run]? = some job)
    (going : job.isOver = false)
    (free : ∀ worker, job.phase = .executing worker →
      worker.next job.sequencer.board ≠ .held) (now : Instant) :
    ∃ next, house.move? (.work run now) = some next := by
  simp only [move?, Daemon.live, beside, found]
  cases phase : job.phase with
  | pending =>
      simp only
      cases job.sequencer.beginRun job.runId <;> exact ⟨_, rfl⟩
  | executing worker =>
      simp only
      generalize lived : (worker.live (Station.surroundings evaluateLiteral now)).run
        ⟨job.sequencer.board, house.front.plant⟩ = result
      obtain ⟨moment, station⟩ := result
      cases Worker.lives_of_run lived with
      | held held => exact absurd held (free worker phase)
      | ended | moved | resting => exact ⟨_, rfl⟩
  | closing => exact ⟨_, rfl⟩
  | ended => simp [Job.isOver, phase] at going

/-- Every move is one of these changes. -/
theorem change_of_move? {move : Move} (moved : house.move? move = some next) :
    house.Change move next := by
  cases move with
  | receive request =>
      cases moved
      exact .receives request rfl rfl
  | work run now => exact change_of_work moved
  | serve position now runId =>
      simp only [move?, Option.bind_eq_some_iff] at moved
      obtain ⟨⟨request, stage⟩, found, served⟩ := moved
      cases stage with
      | received =>
          simp only [serve?] at served
          cases concerns : request.duty? with
          | some duty =>
              simp only [concerns] at served
              split at served
              · rename_i free
                cases served
                exact .enters rfl found concerns (List.isEmpty_iff.mp free) rfl
              · cases served
          | none =>
              simp only [concerns] at served
              split at served <;> cases served
              · exact .answers _ rfl found rfl rfl
              · exact .answers house.plant rfl found rfl rfl
      | atJob duty =>
          cases served
          exact .attends rfl found rfl
      | atReport shown =>
          cases served
          exact .answers house.plant rfl found rfl rfl
      | answered answer => cases served

end House

end Scan
