import Scan.Proofs.Failing
import Scan.Proofs.Fulfilment
import Scan.Proofs.Polling

/-!
# Why a wait ends

A wait ends for a reason that its last reading, the clock, a request to skip it or an abort has
given. A delay is over when its time has elapsed, or when it was skipped. A poll is over with success
when its last reading satisfies it, and for a step that can be skipped when it was; it fails over its
limit only if its last reading does not satisfy it and the limit has passed, and it is interrupted
only if an abort is requested. The first reading is taken before anything else is looked at.
-/

namespace Scan

variable {α : Type}

/-- The poll that was armed, and the time that it was told. -/
def Deed.arms? (deed : Deed α) : Option (Poll α × Instant) :=
  match deed.task, deed.reply with
  | .armPoll poll, some (.told since) => some (poll, since)
  | _, _ => none

theorem Deed.eq_of_arms? {deed : Deed α} {poll : Poll α} {since : Instant}
    (arms : deed.arms? = some (poll, since)) : deed = ⟨.armPoll poll, some (.told since)⟩ := by
  obtain ⟨task, reply⟩ := deed
  unfold arms? at arms
  split at arms
  · cases arms
    simp_all
  · cases arms

/-- The value that was read last for a poll, out of some deeds. -/
def lastReading? (past : List (Deed α)) : Option α :=
  (readingsOf past).getLast?

section Courses

variable [Scalar α] {poll : Poll α} {since : Instant} {cut : Prop} {during : List (Deed α)}
variable {tasks : List (Task α)} {failure : Option ScanError} {error : ScanError}

omit [Scalar α] in
theorem lastReading?_concat_of_silent {deed : Deed α} (silent : deed.reading? = none) :
    lastReading? (during ++ [deed]) = lastReading? during := by
  rw [lastReading?, readingsOf_concat, silent, Option.toList_none, List.append_nil, lastReading?]

omit [Scalar α] in
theorem exists_lastReading? (read : readingsOf during ≠ []) :
    ∃ last ∈ readingsOf during, lastReading? during = some last :=
  ⟨_, List.getLast_mem read, List.getLast?_eq_some_getLast read⟩

namespace Poll.Course

/-- A poll ends with success if its last reading satisfies it or its wait is cut short. -/
theorem exists_of_success (course : poll.Course since cut during [] none) :
    ∃ last, lastReading? during = some last ∧ (poll.isSatisfied last = true ∨ cut) := by
  generalize nothing : ([] : List (Task α)) = tasks at course
  cases course with
  | pausing | probing | checking | resting => cases nothing
  | @satisfied _ value _ holds =>
      exact ⟨value, by simp [lastReading?, Deed.reading?], .inl holds⟩
  | cutShort _ read short =>
      obtain ⟨last, -, own⟩ := exists_lastReading? read
      exact ⟨last, (lastReading?_concat_of_silent rfl).trans own, .inr short⟩

/-- A poll fails over its limit, over an abort or over a reading that went wrong. -/
theorem exists_of_failure (course : poll.Course since cut during tasks (some error)) :
    (∃ limit now last, error = .timeout poll.channel limit.seconds ∧ poll.limit = some limit ∧
        during.getLast? = some ⟨.checkLimit poll since limit, some (.told now)⟩ ∧
        limit.nanoseconds ≤ now - since ∧ lastReading? during = some last ∧
        poll.isSatisfied last = false) ∨
      error = .interrupted ∨
      ∃ source, error = .liveIo poll.channel source ∧
        during.getLast? = some ⟨.probe poll since, some (.found (.error source))⟩ := by
  cases course with
  | timedOut unmet read bounded expired =>
      obtain ⟨last, member, own⟩ := exists_lastReading? read
      exact .inl ⟨_, _, last, rfl, bounded, List.getLast?_concat, expired,
        (lastReading?_concat_of_silent rfl).trans own, unmet last member⟩
  | interrupted => exact .inr (.inl rfl)
  | broken => exact .inr (.inr ⟨_, rfl, List.getLast?_concat⟩)

end Poll.Course

/-- A worker is interrupted only if an abort was requested, and the request is still there. -/
theorem Life.aborted_of_interrupted {others : Board → Board → Prop} {board now : Board}
    {worker current : Worker α} {past : List (Deed α)}
    (life : Life others board worker past now current) (steady : worker.IsSteady)
    (sound : worker.failure = none)
    (keeps : ∀ {now after : Board}, others now after →
      now.control.aborted = true → after.control.aborted = true)
    (interrupted : current.failure = some .interrupted) : now.control.aborted = true := by
  induction life with
  | begin => simp [sound] at interrupted
  | wait _ other ih => exact keeps other (ih interrupted)
  | work life agenda stepped ih =>
      cases Worker.outcome_of_step? (life.isSteady steady) agenda stepped with
      | sound sound => simp [sound] at interrupted
      | broken _ fails =>
          cases interrupted
          generalize same : ScanError.interrupted = error at fails
          cases fails with
          | safePoint aborted | heedAbort _ _ aborted => exact aborted
          | _ => cases same
      | cleaning _ _ spawns =>
          rw [Task.control_of_spawns spawns]
          exact ih (by simpa using interrupted)

end Courses

theorem HasSkipped.isSkippable {turns : List (Turn α)} {run : Nat} {frame : Frame α}
    (skipped : HasSkipped turns run frame) : frame.2.isSkippable = true := by
  obtain ⟨_, skips⟩ := skipped
  cases skips with
  | intro _ _ accepts => exact accepts.waits

namespace Scene

variable [Scalar α] {sequencer : Sequencer α} {past : List (Turn α)} {scene next : Scene α}
variable {run : Nat} {worker : Worker α}

/-- The worker of a run has made no poll when it begins. -/
theorem polls_begin (sequencer : Sequencer α) (runId : String) (cuts : Nat → Prop) :
    Worker.Polls [] cuts (sequencer.worker runId).agenda (sequencer.worker runId).failure := by
  refine .of_silent (fun task member => ?_) fun poll => by simp [Sequencer.worker, Worker.ofSteps]
  simp only [Sequencer.worker, Worker.ofSteps, List.mem_cons, List.not_mem_nil, or_false] at member
  rcases member with rfl | rfl | rfl | rfl | rfl <;> trivial

/-- The polls of the worker of the last run are as far as its deeds say, and their waits are cut
short only if requests to skip their steps were accepted. -/
theorem Plays.polls (plays : sequencer.scene.Plays past scene) (fresh : sequencer.board = {})
    (found : scene.workers[run]? = some worker) (last : run + 1 = scene.workers.length) :
    Worker.Polls (deedsOf run past) (fun id => ∃ run command, HasSkipped past run (id, command))
      worker.agenda worker.failure := by
  refine plays.last_induction (fun run past _ worker =>
    Worker.Polls (deedsOf run past) (fun id => ∃ run command, HasSkipped past run (id, command))
      worker.agenda worker.failure) ?_ ?_ ?_ found last
  · intro past scene runId plays free before
    rw [deedsOf_concat rfl, plays.sound.beyond _ (Nat.le_refl _)]
    exact polls_begin sequencer runId _
  · intro past scene run worker after reply board plays found stepped polls
    obtain ⟨_, _, _, followed, -⟩ := plays.sound.follows found
    obtain ⟨task, rest, agenda, -⟩ := Worker.step?_cases stepped
    rw [deedsOf_work found agenda]
    rw [agenda] at polls
    refine (polls.of_outcome (Worker.outcome_of_step? followed.isSteady agenda stepped) ?_).mono ?_
    · intro id short
      rcases plays.isUnskipped_or fresh id with unskipped | skipped
      · simp [unskipped.isCutShort] at short
      · exact skipped
    · rintro id ⟨run, command, skipped⟩
      exact ⟨run, command, skipped.mono _⟩
  · intro past turn run worker board spares silent polls
    rw [deedsOf_concat silent]
    refine polls.mono ?_
    rintro id ⟨run, command, skipped⟩
    exact ⟨run, command, skipped.mono _⟩

omit [Scalar α] in
theorem mem_starts_of_deed {id : Nat} {command : Command α} {reply : Option (Reply α)}
    (started : ⟨.start id command, reply⟩ ∈ deedsOf run past) :
    (run, (id, command)) ∈ past.filterMap Turn.starts? := by
  obtain ⟨turn, member, deed⟩ := List.mem_filterMap.mp started
  exact List.mem_filterMap.mpr ⟨turn, member, Turn.starts?_of_deed deed⟩

/-- A request to skip that was accepted under the number of a step that was started was made for it.
-/
theorem Plays.hasSkipped_of_started (plays : sequencer.scene.Plays past scene) {id other : Nat}
    {command command' : Command α} {reply : Option (Reply α)}
    (started : ⟨.start id command, reply⟩ ∈ deedsOf run past)
    (skipped : HasSkipped past other (id, command')) : HasSkipped past run (id, command) := by
  have same : (other, (id, command')) = (run, (id, command)) :=
    plays.starts_unique (plays.mem_starts_of_hasSkipped skipped) (mem_starts_of_deed started) rfl
  cases same
  exact skipped

/-- Whatever has a wait to end is in progress. -/
theorem Plays.isCurrent_of_clearStart (plays : sequencer.scene.Plays past scene)
    (found : scene.workers[run]? = some worker) {id : Nat}
    (ahead : .clearStart id ∈ worker.agenda) : scene.IsCurrent run := by
  obtain ⟨_, _, _, followed, -⟩ := plays.sound.follows found
  refine followed.current.mpr (by_contra fun ended => ?_)
  obtain ⟨report, -, suffix⟩ := followed.stage.exists_report ended
  obtain ⟨event, same⟩ := Worker.exists_event_of_suffix suffix ahead
  cases same

/-- A run in progress is interrupted only if an abort is requested. -/
theorem Plays.aborted_of_interrupted (plays : sequencer.scene.Plays past scene)
    (found : scene.workers[run]? = some worker) (current : scene.IsCurrent run)
    (interrupted : worker.failure = some .interrupted) : scene.board.control.aborted = true := by
  obtain ⟨_, _, view, followed, -⟩ := plays.sound.follows found
  rw [← followed.sees current]
  exact followed.life.aborted_of_interrupted nofun rfl (fun other => other.aborted) interrupted

section Armed

variable {before during : List (Deed α)} {poll : Poll α} {since : Instant}

/-- A poll was led to, in whatever run it was made. -/
theorem Plays.isLed_of_armPoll (plays : sequencer.scene.Plays past scene)
    (found : scene.workers[run]? = some worker)
    (split : deedsOf run past = before ++ ⟨.armPoll poll, some (.told since)⟩ :: during) :
    poll.IsLed before [] := by
  obtain ⟨_, _, _, followed, -⟩ := plays.sound.follows found
  exact (followed.life.polls nofun (polls_begin ..)).led split

/-- A poll whose note has not been taken back is that of the run in progress, and as far as its
deeds say. Its wait is cut short only if a request to skip its step was accepted. -/
theorem Plays.course_of_armPoll (plays : sequencer.scene.Plays past scene)
    (fresh : sequencer.board = {}) (found : scene.workers[run]? = some worker)
    (split : deedsOf run past = before ++ ⟨.armPoll poll, some (.told since)⟩ :: during)
    (going : ∀ deed ∈ during, deed.task ≠ .clearStart poll.id) {command : Command α}
    (started : ⟨.start poll.id command, none⟩ ∈ before) :
    scene.IsCurrent run ∧ ∃ tasks behind,
      poll.Course since (HasSkipped past run (poll.id, command)) during tasks worker.failure ∧
        worker.agenda = tasks ++ .clearStart poll.id :: .removeLatch poll.id :: behind := by
  obtain ⟨_, _, _, followed, -⟩ := plays.sound.follows found
  obtain ⟨_, _, -, agenda⟩ := (followed.life.polls nofun (polls_begin ..)).course split going
  have ahead : .clearStart poll.id ∈ worker.agenda := by simp [agenda]
  have current := plays.isCurrent_of_clearStart found ahead
  obtain ⟨tasks, behind, course, agenda⟩ :=
    (plays.polls fresh found current.1).course split going
  refine ⟨current, tasks, behind, course.mono ?_, agenda⟩
  rintro ⟨other, command', skipped⟩
  exact plays.hasSkipped_of_started (split ▸ List.mem_append_left _ started) skipped

end Armed

/-- A delay is completed only after its time or after a request to skip it. -/
theorem Plays.delay_ends (plays : sequencer.scene.Plays past scene) (fresh : sequencer.board = {})
    (found : scene.workers[run]? = some worker) {id : Nat} {description : String} {seconds : α}
    {duration : Duration} {rest : List (Task α)} {reply : Option (Reply α)}
    (agenda : worker.agenda = .settle id (.delay description seconds duration) :: rest)
    (acted : scene.act? (.work run reply) = some next)
    (completed : (next.board.monitor id).status = .completed) :
    (∃ start now, ⟨.armDelay id duration, some (.told start)⟩ ∈ deedsOf run past ∧
        ⟨.checkDeadline id (start + duration.nanoseconds), some (.told now)⟩ ∈ deedsOf run past ∧
        start + duration.nanoseconds ≤ now) ∨
      HasSkipped past run (id, .delay description seconds duration) := by
  refine (plays.isFulfilled_or_hasSkipped fresh found agenda rfl acted completed).imp_left ?_
  intro fulfilled
  cases fulfilled with
  | observed own => cases own
  | elapsed due told passed =>
      obtain ⟨start, armed, rfl⟩ := due
      exact ⟨start, _, armed, told, passed⟩

/-- Why waits end, in every run and under every interleaving with other runs and with calls.

A delay is completed only if it has been told a time at which its duration had elapsed since its
beginning, or if a request to skip it was accepted.

A poll is made for a step that was started: for a write that is waited for, right after the value
that it compares its readings to was written, or for a threshold that is fixed at the beginning.
If the first value that is read for it satisfies it, this is the only one, and the poll is over
with success. Whenever it is over without an error, the last value that was read satisfies it, or
its step is one that can be skipped and a request to skip it was accepted. It fails over its
limit only if at least one value was read, the last one does not satisfy it and the limit has
passed since its beginning by the time that it was told last; it is interrupted only if an abort
is requested; and the only other error is that of its last reading.

A run in progress that was interrupted, be it in a delay or between two steps, has an abort
requested. -/
theorem waits_end_for_a_reason {sequence : Sequence} {pollInterval : Duration}
    (accepted : Sequencer.ofSequence sequence pollInterval = .ok sequencer)
    (plays : sequencer.scene.Plays past scene) (found : scene.workers[run]? = some worker) :
    (∀ {id description seconds duration rest reply next},
        worker.agenda = .settle id (.delay description seconds duration) :: rest →
        scene.act? (.work run reply) = some next →
        (next.board.monitor id).status = .completed →
          (∃ start now, ⟨.armDelay id duration, some (.told start)⟩ ∈ deedsOf run past ∧
            ⟨.checkDeadline id (start + duration.nanoseconds), some (.told now)⟩ ∈
              deedsOf run past ∧ start + duration.nanoseconds ≤ now) ∨
          HasSkipped past run (id, .delay description seconds duration)) ∧
      (∀ {before during poll since},
        deedsOf run past = before ++ ⟨.armPoll poll, some (.told since)⟩ :: during →
        (∀ deed ∈ during, deed.task ≠ .clearStart poll.id) →
          ∃ command, ⟨.start poll.id command, none⟩ ∈ before ∧
            poll.IsMadeFor before (poll.id, command) ∧
            poll.lead command.writes? <:+ before.map Deed.task ∧
            (∀ value, (readingsOf during).head? = some value → poll.isSatisfied value = true →
              readingsOf during = [value] ∧ worker.failure = none ∧
                worker.agenda.head? = some (.clearStart poll.id)) ∧
            (worker.agenda.head? = some (.clearStart poll.id) → worker.failure = none →
              ∃ last, lastReading? during = some last ∧ (poll.isSatisfied last = true ∨
                command.isSkippable = true ∧ HasSkipped past run (poll.id, command))) ∧
            ∀ error, worker.agenda.head? = some (.clearStart poll.id) →
              worker.failure = some error →
                (∃ limit now last, error = .timeout poll.channel limit.seconds ∧
                  poll.limit = some limit ∧
                  during.getLast? = some ⟨.checkLimit poll since limit, some (.told now)⟩ ∧
                  limit.nanoseconds ≤ now - since ∧ lastReading? during = some last ∧
                  poll.isSatisfied last = false) ∨
                error = .interrupted ∧ scene.board.control.aborted = true ∨
                ∃ source, error = .liveIo poll.channel source ∧
                  during.getLast? = some ⟨.probe poll since, some (.found (.error source))⟩) ∧
      (scene.IsCurrent run → worker.failure = some .interrupted →
        scene.board.control.aborted = true) := by
  have fresh := Sequencer.board_eq_of_ofSequence accepted
  refine ⟨fun agenda acted completed => plays.delay_ends fresh found agenda acted completed, ?_,
    plays.aborted_of_interrupted found⟩
  intro before during poll since split going
  obtain ⟨command, started, made, lead⟩ := (plays.isLed_of_armPoll found split).made
  obtain ⟨current, tasks, behind, course, agenda⟩ :=
    plays.course_of_armPoll fresh found split going started
  rw [List.append_nil] at lead
  rw [agenda]
  refine ⟨command, started, made, lead, fun value first holds => ?_, fun ends sound => ?_,
    fun error ends failed => ?_⟩
  · obtain ⟨only, rfl, sound⟩ := course.eq_of_satisfied first holds
    exact ⟨only, sound, rfl⟩
  · obtain rfl := course.eq_nil_of_head ends
    rw [sound] at course
    obtain ⟨last, own, reason⟩ := course.exists_of_success
    exact ⟨last, own, reason.imp_right fun skipped => ⟨skipped.isSkippable, skipped⟩⟩
  · rw [failed] at course
    refine course.exists_of_failure.imp_right (Or.imp_left fun interrupted => ⟨interrupted, ?_⟩)
    exact plays.aborted_of_interrupted found current (interrupted ▸ failed)

/-- A channel that is right at the first reading confirms a write even if an abort is requested
before that reading. -/
theorem first_reading_confirms :
    ∃ (sequencer : Sequencer Rat) (past : List (Turn Rat)) (scene : Scene Rat) (worker : Worker Rat)
      (before during : List (Deed Rat)) (poll : Poll Rat) (since : Instant),
      sequencer.scene.Plays past scene ∧ scene.workers[0]? = some worker ∧
        deedsOf 0 past = before ++ ⟨.armPoll poll, some (.told since)⟩ :: during ∧
        scene.board.control.aborted = true ∧ readingsOf during = [1] ∧ worker.failure = none ∧
        worker.agenda.head? = some (.clearStart poll.id) := by
  have rehearsed : Scene.rehearse (α := Rat)
      ⟨none, [(Descriptor.set "a" 1).withParam "timeout" (.number (.float 5))]⟩ ⟨2000000⟩
      (.execute "run" :: Scene.workActs 2
          [(.told 0, 7), (.wrote (.ok ()), 1), (.told 1, 0), (.told 2, 1)] ++
        [Act.invoke .abort, .access 0 0, .work 0 (some (.found (.ok 1)))])
      (fun past scene => scene.board.control.aborted && scene.workers.length == 1 &&
        (deedsOf 0 past).all (fun deed => !(deed.task.isErrand && deed.task.cleansUp)) &&
        ((deedsOf 0 past)[13]?.any fun deed => deed.arms?.any fun (poll, _) =>
          poll.isSatisfied 1 && decide (readingsOf ((deedsOf 0 past).drop 14) = [1]))) = true := by
    with_unfolding_all decide
  obtain ⟨sequencer, past, scene, accepted, plays, test⟩ := Scene.exists_of_rehearse rehearsed
  simp only [Bool.and_eq_true, List.all_eq_true, Option.any_eq_true, decide_eq_true_eq] at test
  obtain ⟨⟨⟨aborted, one⟩, silent⟩, deed, own, ⟨poll, since⟩, arms, holds, readings⟩ := test
  obtain ⟨inBounds, rfl⟩ := List.getElem?_eq_some_iff.mp own
  have split := (List.take_append_drop 13 (deedsOf 0 past)).symm
  rw [List.drop_eq_getElem_cons inBounds, Deed.eq_of_arms? arms] at split
  have found := List.getElem?_eq_getElem (Nat.lt_of_lt_of_eq Nat.zero_lt_one (eq_of_beq one).symm)
  obtain ⟨-, polls, -⟩ := waits_end_for_a_reason accepted plays found
  obtain ⟨command, -, -, -, first, -⟩ := polls split fun deed member same => by
    simpa [same, Task.isErrand, Task.cleansUp] using silent deed (List.mem_of_mem_drop member)
  obtain ⟨only, sound, ends⟩ := first 1 (by rw [readings]; rfl) holds
  exact ⟨sequencer, past, scene, _, _, _, poll, since, plays, found, split, aborted, only, sound,
    ends⟩

end Scene

end Scan
