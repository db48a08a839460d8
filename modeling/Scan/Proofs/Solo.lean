import Scan.Proofs.House

/-!
# Requests that are served without a pause

If a request is served from its beginning to its answer while nobody else does anything, it comes to
what the daemon makes of it when it performs requests one after another. So whatever is special in a
house comes from what happens between the steps of a request.
-/

namespace Scan

open Json

/-! ## Calls and requests that are made at once -/

namespace Call

variable {totalWork : UInt64} {now : Instant} {board : Board}

/-- A pause, a resume and an abort come back with nothing. -/
theorem run_eq_done {call : Call} (simple : call = .pause ∨ call = .resume ∨ call = .abort) :
    (call.run totalWork now board).2 = .done := by
  rcases simple with rfl | rfl | rfl
  · by_cases running : board.run == .running
    · rw [run_of_more (by simp only [step, running, if_true]; rfl), run_of_result rfl]
    · rw [run_of_result (by simp only [step, running]; rfl)]
  · by_cases paused : board.run == .paused
    · rw [run_of_more (by simp only [step, paused, if_true]; rfl), run_of_result rfl]
    · rw [run_of_result (by simp only [step, paused]; rfl)]
  · by_cases active : board.run.isActive
    · rw [run_of_result (by simp only [step, active, if_true]; rfl)]
    · rw [run_of_result (by simp only [step, active]; rfl)]

/-- A skip comes back with whether it was accepted. -/
theorem exists_run_skip : ∃ accepted, (skip.run totalWork now board).2 = .skipped accepted := by
  by_cases active : board.run.isActive
  · rw [run_of_more (by simp only [step, active, if_true]; rfl)]
    cases innermost : board.innermost? with
    | none => exact ⟨false, by rw [run_of_result (by simp only [step, innermost]; rfl)]⟩
    | some id =>
        rw [run_of_more (by simp only [step, innermost]; rfl)]
        by_cases accepts : (board.monitor id).acceptsSkip
        · rw [run_of_more (by simp only [step, accepts, if_true]; rfl), run_of_result rfl]
          exact ⟨true, rfl⟩
        · exact ⟨false, by rw [run_of_result (by simp only [step, accepts]; rfl)]⟩
  · exact ⟨false, by rw [run_of_result (by simp only [step, active]; rfl)]⟩

end Call

namespace Daemon

variable {daemon after : Daemon} {now : Instant} {runId : String} {params value : Value}

/-- A write changes nothing but the plant. -/
theorem eq_of_write (performed : daemon.write now params = .ok (value, after)) :
    after = { daemon with plant := after.plant } := by
  simp only [write, bind, Except.bind] at performed
  split at performed
  · cases performed
  split at performed
  · cases performed
  split at performed
  · cases performed
  cases performed
  rfl

/-- A request that does not concern the job leaves the daemon as it is but for its plant. -/
theorem eq_of_perform {request : Request} (aside : request.duty? = none)
    (performed : daemon.perform now runId request = .ok (value, after)) :
    after = { daemon with plant := after.plant } := by
  unfold Request.duty? at aside
  unfold perform at performed
  split at performed
  · cases found : daemon.simulate runId request.params <;> simp only [found] at performed <;>
      cases performed
    rfl
  · rename_i method
    simp only [method, Option.map_eq_none_iff] at aside
    cases given : sequenceParam request.params with
    | ok => simp [given, Except.toOption] at aside
    | error => simp [submit, given, bind, Except.bind] at performed
  case h_3 | h_4 | h_5 | h_6 | h_7 =>
    rename_i method
    simp [method] at aside
  · cases found : daemon.read now request.params <;> simp only [found] at performed <;>
      cases performed
    rfl
  · exact eq_of_write performed
  · cases performed

end Daemon

namespace House

/-! ## Nobody else -/

/-- A request goes on, step by step, while nobody else does anything. -/
inductive Solo (position : Nat) (now : Instant) (runId : String) : House → House → Prop where
  | done (house : House) : Solo position now runId house house
  | serve {house middle next : House}
      (served : house.move? (.serve position now runId) = some middle)
      (rest : Solo position now runId middle next) : Solo position now runId house next

/-- A request has its answer, and the daemon is as it is after it; a request that was refused has
left it as it was. -/
structure Answers (house next : House) (position : Nat) (request : Request)
    (result : Except Daemon.Refusal (Value × Daemon)) : Prop where
  answer : next.errands[position]? = some ⟨request, .answered (result.map Prod.fst)⟩
  front : next.front = (result.toOption.map Prod.snd).getD house.front

section Steps

variable {house : House} {position : Nat} {now : Instant} {runId : String} {request : Request}

theorem withStage_withStage (first second : Errand.Stage) :
    (house.withStage position request first).withStage position request second =
      house.withStage position request second := by
  simp [withStage]

/-- What is done with the job does not depend on the requests. -/
theorem attend_withStage (stage : Errand.Stage) (duty : Duty) :
    (house.withStage position request stage).attend now runId duty =
      ((house.attend now runId duty).1.withStage position request stage,
        (house.attend now runId duty).2) := by
  have same : (house.withStage position request stage).current? = house.current? := rfl
  have interval : (house.withStage position request stage).pollInterval = house.pollInterval := rfl
  cases duty <;> simp only [attend, same, interval] <;> (try split) <;> (try split) <;> rfl

variable (inBounds : position < house.errands.length)

include inBounds in
theorem move?_serve (stage : Errand.Stage) :
    (house.withStage position request stage).move? (.serve position now runId) =
      (house.withStage position request stage).serve? position now runId ⟨request, stage⟩ := by
  simp [move?, withStage, inBounds]

include inBounds in
/-- A step of a request that has the job to itself. -/
theorem move?_atJob (duty : Duty) :
    (house.withStage position request (.atJob duty)).move? (.serve position now runId) =
      some ((house.attend now runId duty).1.withStage position request
        (house.attend now runId duty).2) := by
  rw [move?_serve inBounds]
  simp only [serve?]
  rw [attend_withStage, withStage_withStage]

/-- The house with the board of a run as a control call leaves it. -/
def withBoard (house : House) (run : Nat) (job : Job) (board : Board) : House :=
  { house with
    runs := house.runs.set run { job with sequencer := job.sequencer.withBoard board } }

theorem current?_withBoard {run : Nat} {job : Job} (current : house.current? = some (run, job))
    (board : Board) : (house.withBoard run job board).current? =
      some (run, { job with sequencer := job.sequencer.withBoard board }) := by
  obtain ⟨slot, found⟩ := current?_eq_some.mp current
  exact current?_eq_some.mpr
    ⟨slot, List.getElem?_set_self (List.getElem?_eq_some_iff.mp found).1⟩

/-- All the accesses of a control call, one after another, are the call made at once. -/
theorem solo_call {run : Nat} {job : Job} (current : house.current? = some (run, job))
    (inBounds : position < house.errands.length) {call : Call} {board : Board}
    {result : CallResult}
    (made : call.run job.sequencer.totalWork now job.sequencer.board = (board, result)) :
    Solo position now runId (house.withStage position request (.atJob (.call call)))
      ((house.withBoard run job board).withStage position request
        ((Call.Rest.result result).stage run)) := by
  generalize bound : call.remaining = accesses
  induction accesses using Nat.strongRecOn generalizing call house job with
  | _ accesses ih =>
      refine .serve (move?_atJob inBounds (.call call)) ?_
      simp only [attend, current]
      generalize stepped : call.step job.sequencer.totalWork now job.sequencer.board = outcome
      obtain ⟨after, rest⟩ := outcome
      cases rest with
      | result found =>
          cases (Call.run_of_result stepped).symm.trans made
          exact .done _
      | more next =>
          have fewer : next.remaining < accesses := bound ▸ Call.remaining_lt_of_step stepped
          have goesOn := ih next.remaining fewer (current?_withBoard current after)
            (inBounds : position < (house.withBoard run job after).errands.length)
            ((Call.run_of_more stepped).symm.trans made) rfl
          simp only [withBoard, List.set_set] at goesOn
          exact goesOn

theorem Solo.trans {first second third : House} (solo : Solo position now runId first second)
    (later : Solo position now runId second third) : Solo position now runId first third := by
  induction solo with
  | done => exact later
  | serve served _ ih => exact .serve served (ih later)

theorem errands_withStage (house : House) (inBounds : position < house.errands.length)
    (stage : Errand.Stage) :
    (house.withStage position request stage).errands[position]? = some ⟨request, stage⟩ := by
  simp [withStage, inBounds]

theorem front_withBoard {run : Nat} {job : Job} (current : house.current? = some (run, job))
    (board : Board) : (house.withBoard run job board).front =
      { house.front with
        job := some { job with sequencer := job.sequencer.withBoard board } } := by
  rw [front, current?_withBoard current]
  rfl

/-- A request that goes on until it has the answer of the daemon is served as the daemon performs
it. -/
theorem answers_of_solo {start after : House} {result : Except Daemon.Refusal (Value × Daemon)}
    (solo : Solo position now runId start
      (after.withStage position request (.answered (result.map Prod.fst))))
    (inBounds : position < after.errands.length)
    (front : after.front = (result.toOption.map Prod.snd).getD house.front) :
    ∃ next, Solo position now runId start next ∧ house.Answers next position request result :=
  ⟨_, solo, errands_withStage after inBounds _, front⟩

/-- A pause, a resume or an abort that nobody interrupts. -/
theorem solo_control {call : Call} (simple : call = .pause ∨ call = .resume ∨ call = .abort)
    (inBounds : position < house.errands.length) :
    ∃ next, Solo position now runId (house.withStage position request (.atJob (.call call))) next ∧
      house.Answers next position request (.ok (house.front.control now call)) := by
  cases current : house.current? with
  | none =>
      have vacant : house.front.job = none := by simp [front, current]
      have performed : house.front.control now call = (stateAnswer .idle, house.front) := by
        simp [Daemon.control, vacant, stateAnswer]
      have vain : call.vainStage = .answered (.ok (stateAnswer .idle)) := by
        rcases simple with rfl | rfl | rfl <;> rfl
      rw [performed]
      refine answers_of_solo (.serve (move?_atJob inBounds (.call call)) ?_) inBounds rfl
      simp only [attend, current, vain]
      exact .done _
  | some found =>
      obtain ⟨run, job⟩ := found
      have occupied : house.front.job = some job := by simp [front, current]
      cases made : call.run job.sequencer.totalWork now job.sequencer.board with
      | mk board result =>
          have nothing : result = .done := (congrArg Prod.snd made).symm.trans
            (Call.run_eq_done simple)
          subst nothing
          have within : position < (house.withBoard run job board).errands.length := inBounds
          have performed : house.front.control now call =
              (stateAnswer board.run, (house.withBoard run job board).front) := by
            rw [front_withBoard current]
            simp only [Daemon.control, occupied, Sequencer.perform, made]
            rfl
          rw [performed]
          refine answers_of_solo ((solo_call current inBounds made).trans
            (.serve (move?_atJob within .look) ?_)) within rfl
          simp only [attend, state, current?_withBoard current]
          exact .done _

/-- A skip that nobody interrupts. -/
theorem solo_skip (inBounds : position < house.errands.length) :
    ∃ next, Solo position now runId (house.withStage position request (.atJob (.call .skip))) next ∧
      house.Answers next position request (.ok (house.front.skip now)) := by
  cases current : house.current? with
  | none =>
      have vacant : house.front.job = none := by simp [front, current]
      have performed : house.front.skip now = (skipAnswer false, house.front) := by
        simp [Daemon.skip, vacant, skipAnswer]
      rw [performed]
      refine answers_of_solo (.serve (move?_atJob inBounds (.call .skip)) ?_) inBounds rfl
      simp only [attend, current, Call.vainStage]
      exact .done _
  | some found =>
      obtain ⟨run, job⟩ := found
      have occupied : house.front.job = some job := by simp [front, current]
      cases made : Call.skip.run job.sequencer.totalWork now job.sequencer.board with
      | mk board result =>
          obtain ⟨accepted, skipped⟩ :=
            @Call.exists_run_skip job.sequencer.totalWork now job.sequencer.board
          rw [made] at skipped
          change result = _ at skipped
          subst skipped
          have performed : house.front.skip now =
              (skipAnswer accepted, (house.withBoard run job board).front) := by
            rw [front_withBoard current]
            simp only [Daemon.skip, occupied, Sequencer.perform, made]
            cases accepted <;> rfl
          rw [performed]
          exact answers_of_solo (solo_call current inBounds made) inBounds rfl

/-- A look at the last report, after which the status is told. -/
theorem move?_atReport (inBounds : position < house.errands.length)
    (shown : Option (Nat × Progress)) :
    (house.withStage position request (.atReport shown)).move? (.serve position now runId) =
      some (house.withStage position request
        (.answered (.ok (statusAnswer (shown.map Prod.snd) house.lastReport)))) := by
  rw [move?_serve inBounds]
  simp only [serve?]
  rw [withStage_withStage]
  rfl

/-- A look at the status that nobody interrupts. -/
theorem solo_status (inBounds : position < house.errands.length) :
    ∃ next, Solo position now runId
        (house.withStage position request (.atJob (.call .progress))) next ∧
      house.Answers next position request (.ok (house.front.status now, house.front)) := by
  cases current : house.current? with
  | none =>
      have performed : house.front.status now = statusAnswer none house.lastReport := by
        simp [Daemon.status, statusAnswer, optionalValue, front, current]
      rw [performed]
      refine answers_of_solo (.serve (move?_atJob inBounds (.call .progress)) ?_) inBounds rfl
      simp only [attend, current, Call.vainStage]
      exact .serve (move?_atReport inBounds none) (.done _)
  | some found =>
      obtain ⟨run, job⟩ := found
      have made : Call.progress.run job.sequencer.totalWork now job.sequencer.board =
          (job.sequencer.board, .progress (job.sequencer.progress now)) := by
        have whole := job.sequencer.perform_progress now
        simp only [Sequencer.perform, Prod.mk.injEq] at whole
        exact Prod.ext (congrArg Sequencer.board whole.1) whole.2
      have performed : house.front.status now =
          statusAnswer (some (job.sequencer.progress now)) house.lastReport := by
        simp [Daemon.status, statusAnswer, optionalValue, front, current]
      have same : (house.withBoard run job job.sequencer.board).front = house.front := by
        rw [front_withBoard current, front, current]
        rfl
      have within : position < (house.withBoard run job job.sequencer.board).errands.length :=
        inBounds
      rw [performed]
      exact answers_of_solo ((solo_call current inBounds made).trans
        (.serve (move?_atReport within _) (.done _))) within same

/-- What comes of a submission when no run is in progress. -/
def started (house : House) (runId : String) (sequence : Sequence) :
    Except Daemon.Refusal (Value × Daemon) :=
  match Sequencer.ofSequence sequence house.pollInterval with
  | .ok sequencer => .ok (acceptance sequencer.totalWork,
      { house.front with job := some { sequencer := sequencer, runId := runId } })
  | .error error => .error (.scan error)

/-- A run is started and takes the place of the job. -/
theorem solo_start (sequence : Sequence) (inBounds : position < house.errands.length) :
    ∃ next, Solo position now runId
        (house.withStage position request (.atJob (.start sequence))) next ∧
      house.Answers next position request (house.started runId sequence) := by
  cases compiled : (Sequencer.ofSequence sequence house.pollInterval :
      Except _ (Sequencer Float)) with
  | error error =>
      simp only [started, compiled]
      refine answers_of_solo (.serve (move?_atJob inBounds (.start sequence)) ?_) inBounds rfl
      simp only [attend, compiled]
      exact .done _
  | ok sequencer =>
      simp only [started, compiled]
      let job : Job := { sequencer := sequencer, runId := runId }
      let later : House := { house with runs := house.runs ++ [job] }
      have within : position < later.errands.length := inBounds
      have current : ({ later with slot := some house.runs.length } : House).current? =
          some (house.runs.length, job) :=
        current?_eq_some.mpr ⟨rfl, List.getElem?_concat_length⟩
      have solo : Solo position now runId
          (house.withStage position request (.atJob (.start sequence)))
          (({ later with slot := some house.runs.length } : House).withStage position request
            (.answered (.ok (acceptance sequencer.totalWork)))) := by
        refine .serve (move?_atJob inBounds (.start sequence)) ?_
        simp only [attend, compiled]
        exact .serve (move?_atJob within (.install house.runs.length sequencer.totalWork))
          (.done _)
      refine answers_of_solo solo inBounds ?_
      rw [front, current]
      rfl

/-- A submission starts a run if the job, should there be one, is over. -/
theorem submit_eq_started {sequence : Sequence}
    (given : Daemon.sequenceParam request.params = .ok sequence)
    (free : ∀ job ∈ house.front.job, job.isOver = true) :
    house.front.submit runId request.params = house.started runId sequence := by
  have started : house.front.submit runId request.params =
      (Except.mapError Daemon.Refusal.scan (Sequencer.ofSequence sequence house.pollInterval) >>=
        fun sequencer => .ok (acceptance sequencer.totalWork,
          { house.front with job := some { sequencer := sequencer, runId := runId } })) := by
    cases job : house.front.job with
    | none =>
        simp only [Daemon.submit, given, job]
        rfl
    | some job' =>
        simp only [Daemon.submit, given, job, free job' job]
        rfl
  rw [started, House.started]
  cases (Sequencer.ofSequence sequence house.pollInterval : Except _ (Sequencer Float)) <;> rfl

/-- A submission goes on to the start of its run if the job, should there be one, is over. -/
theorem attend_vet_of_free {sequence : Sequence}
    (free : ∀ job ∈ house.front.job, job.isOver = true) :
    house.attend now runId (.vet sequence) = (house, .atJob (.start sequence)) := by
  cases current : house.current? with
  | none => simp only [attend, current]
  | some found =>
      have isOver := free found.2 (by simp [front, current])
      simp only [attend, current, isOver, if_true]

/-- A submission of a sequence that nobody interrupts. -/
theorem solo_vet {sequence : Sequence} (inBounds : position < house.errands.length)
    (given : Daemon.sequenceParam request.params = .ok sequence) :
    ∃ next, Solo position now runId
        (house.withStage position request (.atJob (.vet sequence))) next ∧
      house.Answers next position request (house.front.submit runId request.params) := by
  by_cases free : ∀ job ∈ house.front.job, job.isOver = true
  · obtain ⟨next, solo, answers⟩ : ∃ next, Solo position now runId
        (house.withStage position request (.atJob (.start sequence))) next ∧
      house.Answers next position request (house.started runId sequence) :=
      solo_start sequence inBounds
    refine ⟨next, .serve (move?_atJob inBounds (.vet sequence)) ?_,
      submit_eq_started given free ▸ answers⟩
    rw [attend_vet_of_free free]
    exact solo
  · simp only [not_forall, Bool.not_eq_true] at free
    obtain ⟨job, occupied, going⟩ := free
    have occupied : house.front.job = some job := occupied
    obtain ⟨⟨run, _⟩, current, rfl⟩ := Option.map_eq_some_iff.mp occupied
    have performed : house.front.submit runId request.params =
        (busyAnswer house.state).map fun value => (value, house.front) := by
      simp only [Daemon.submit, given, occupied, going, state, current]
      rfl
    rw [performed]
    refine answers_of_solo (.serve (move?_atJob inBounds (.vet sequence)) ?_) inBounds rfl
    simp only [attend, current, going, Bool.false_eq_true, if_false]
    exact .serve (move?_atJob inBounds .decline) (.done _)

/-- A request that concerns the job is performed once it has the job to itself. -/
theorem solo_duty {duty : Duty} (concerns : request.duty? = some duty)
    (inBounds : position < house.errands.length) :
    ∃ next, Solo position now runId (house.withStage position request (.atJob duty)) next ∧
      house.Answers next position request (house.front.perform now runId request) := by
  unfold Request.duty? at concerns
  unfold Daemon.perform
  split at concerns
  · rename_i method
    simp only [method]
    cases given : Daemon.sequenceParam request.params with
    | error => simp [given, Except.toOption] at concerns
    | ok sequence =>
        simp only [given, Except.toOption, Option.map_some, Option.some.injEq] at concerns
        subst concerns
        exact solo_vet inBounds given
  all_goals cases concerns
  all_goals rename_i method
  all_goals simp only [method]
  · exact solo_control (.inl rfl) inBounds
  · exact solo_control (.inr (.inl rfl)) inBounds
  · exact solo_control (.inr (.inr rfl)) inBounds
  · exact solo_skip inBounds
  · exact solo_status inBounds

/-- A request that is served while nobody else does anything is answered as the daemon performs it,
and leaves the daemon as it would. -/
theorem request_alone_is_performed
    (found : house.errands[position]? = some ⟨request, .received⟩) (free : house.duties = []) :
    ∃ next, Solo position now runId house next ∧
      house.Answers next position request (house.front.perform now runId request) := by
  have inBounds := (List.getElem?_eq_some_iff.mp found).1
  cases concerns : request.duty? with
  | some duty =>
      obtain ⟨next, solo, answers⟩ : ∃ next, Solo position now runId
          (house.withStage position request (.atJob duty)) next ∧
        house.Answers next position request (house.front.perform now runId request) :=
        solo_duty concerns inBounds
      refine ⟨next, .serve ?_ solo, answers⟩
      simp [move?, found, serve?, concerns, free]
  | none =>
      cases performed : house.front.perform now runId request with
      | error refusal =>
          refine answers_of_solo (.serve ?_ (.done _)) inBounds rfl
          simp [move?, found, serve?, concerns, performed, Except.map]
      | ok result =>
          obtain ⟨value, daemon⟩ := result
          have plain := Daemon.eq_of_perform concerns performed
          have within : position < (house.withPlant daemon.plant).errands.length := inBounds
          refine answers_of_solo (.serve ?_ (.done _)) within plain.symm
          simp [move?, found, serve?, concerns, performed, Except.map, withPlant]

end Steps

end House

end Scan
