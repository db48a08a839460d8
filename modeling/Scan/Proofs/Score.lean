import Scan.Proofs.Expansion
import Scan.Proofs.Step

/-!
# Scores

The score of a run is what its surroundings notice of it: the calls that it makes, one after
another, and the units of work that it counts. Monitors, safe points and the nesting of steps have
no part in it. A score goes on by itself from one reply to the next, so that two runs with the same
score cannot be told apart.
-/

namespace Scan

variable {α : Type}

/-- One thing that the surroundings notice of a run, with what the run wants it for. -/
inductive Beat (α : Type) where
  | evaluate (text : String) (purpose : Purpose α)
  | baseline (condition : Condition α) (desired : α)
  | write (channel : String) (value : α)
  /-- Asks for the time only to note it. -/
  | stamp
  | armDelay (duration : Duration)
  | checkDeadline (deadline : Instant)
  | restUntil (deadline : Instant) (limit : Duration)
  | armPoll (poll : Poll α)
  | probe (poll : Poll α) (since : Instant)
  | checkLimit (poll : Poll α) (since : Instant) (limit : Duration)
  | restPoll (poll : Poll α) (since : Instant)
  | count

/-- What has become of a run, and what is still to come. -/
inductive Score (α : Type) where
  | playing (beats : List (Beat α))
  /-- The report of an error is due. -/
  | broken (error : ScanError)
  | closed (failure : Option ScanError)

/-- What the surroundings notice: a call with the reply to it, or a unit of work. -/
inductive Notice (α : Type) where
  | call (query : Query α) (reply : Reply α)
  | count

/-- A poll without the number of its monitor. -/
def Poll.anonymous (poll : Poll α) : Poll α :=
  { poll with id := 0 }

namespace Beat

/-! ## What steps come to -/

/-- A wait for a condition. -/
def ofPoll (poll : Poll α) : List (Beat α) :=
  [.stamp, .armPoll poll.anonymous]

/-- A write and the wait for its readback. -/
def ofWrite (channel : String) (completion : Completion α) (value : α) : List (Beat α) :=
  .write channel value ::
    if completion.wait then
      ofPoll ⟨0, completion.readback, .equals, value, completion.tolerance, completion.timeout⟩
    else []

/-- A wait for a threshold. -/
def ofAwait (condition : Condition α) (threshold : α) : List (Beat α) :=
  ofPoll ⟨0, condition.channel, condition.comparison, threshold, condition.tolerance,
    condition.timeout⟩

/-- What follows once a quantity has a value. -/
def ofPurpose (value : α) : Purpose α → List (Beat α)
  | .assign assignment => ofWrite assignment.channel assignment.completion value
  | .await condition =>
      if condition.comparison.isRelative then [.baseline condition value]
      else ofAwait condition value

/-- A quantity and what it is wanted for. -/
def ofQuantity (purpose : Purpose α) : Quantity α → List (Beat α)
  | .literal value => ofPurpose value purpose
  | .expression text => [.evaluate text purpose]

/-- A step without nested steps, up to its end. -/
def ofLeaf : Command α → List (Beat α)
  | .delay _ _ duration => [.stamp, .armDelay duration]
  | .set _ assignment => ofQuantity (.assign assignment) assignment.value
  | .wait _ condition => ofQuantity (.await condition) condition.value
  | _ => []

/-- A unit of work, up to where it is counted. -/
def ofUnit [Scalar α] : WorkUnit α → List (Beat α)
  | .leaf command => ofLeaf command ++ [.count]
  | .value sweep iteration =>
      ofWrite sweep.channel sweep.completion (sweep.value iteration) ++ [.count]

/-- Units of work one after another. -/
def ofUnits [Scalar α] (units : List (WorkUnit α)) : List (Beat α) :=
  units.flatMap ofUnit

/-! ## How a beat is played -/

/-- The call that a beat makes, if it makes one. A rest is not told apart by the monitor that it
watches. -/
def query? (pollInterval : Duration) : Beat α → Option (Query α)
  | .evaluate text _ => some (.evaluate text)
  | .baseline condition _ => some (.read condition.channel)
  | .write channel value => some (.write channel value)
  | .stamp | .armDelay _ | .checkDeadline _ | .armPoll _ | .checkLimit .. => some .clock
  | .restUntil _ limit => some (.rest 0 limit)
  | .probe poll _ => some (.read poll.channel)
  | .restPoll .. => some (.rest 0 pollInterval)
  | .count => none

variable [Scalar α]

/-- What follows a reading of a poll. -/
def ofReading (poll : Poll α) (since : Instant) (value : α) : List (Beat α) :=
  if poll.isSatisfied value then []
  else
    match poll.limit with
    | some limit => [.checkLimit poll since limit]
    | none => [.restPoll poll since]

/-- The beats that come in the place of one that has got its reply, or the error that it fails with;
nothing if the reply does not fit. No wait is cut short. -/
def answer (pollInterval : Duration) (beat : Beat α) (reply : Option (Reply α)) :
    Option (Except ScanError (List (Beat α))) :=
  match beat with
  | .evaluate _ purpose =>
      match reply with
      | some (.evaluated (.ok value)) => some (.ok (ofPurpose value purpose))
      | some (.evaluated (.error error)) => some (.error (.expression error))
      | _ => none
  | .baseline condition desired =>
      match reply with
      | some (.found (.ok initial)) =>
          some (.ok (ofAwait condition (condition.comparison.threshold desired initial)))
      | some (.found (.error error)) => some (.error (.liveIo condition.channel error))
      | _ => none
  | .write channel _ =>
      match reply with
      | some (.wrote (.ok ())) => some (.ok [])
      | some (.wrote (.error error)) => some (.error (.liveIo channel error))
      | _ => none
  | .stamp =>
      match reply with
      | some (.told _) => some (.ok [])
      | _ => none
  | .armDelay duration =>
      match reply with
      | some (.told now) => some (.ok [.checkDeadline (now + duration.nanoseconds)])
      | _ => none
  | .checkDeadline deadline =>
      match reply with
      | some (.told now) =>
          some (.ok (if deadline ≤ now then []
            else [.restUntil deadline ((Duration.between now deadline).min pollInterval)]))
      | _ => none
  | .restUntil deadline _ =>
      match reply with
      | some .rested => some (.ok [.checkDeadline deadline])
      | _ => none
  | .armPoll poll =>
      match reply with
      | some (.told now) => some (.ok [.probe poll now])
      | _ => none
  | .probe poll since =>
      match reply with
      | some (.found (.ok value)) => some (.ok (ofReading poll since value))
      | some (.found (.error error)) => some (.error (.liveIo poll.channel error))
      | _ => none
  | .checkLimit poll since limit =>
      match reply with
      | some (.told now) =>
          some (if limit.nanoseconds ≤ now - since then
            .error (.timeout poll.channel limit.seconds) else .ok [.restPoll poll since])
      | _ => none
  | .restPoll poll since =>
      match reply with
      | some .rested => some (.ok [.probe poll since])
      | _ => none
  | .count =>
      match reply with
      | none => some (.ok [])
      | _ => none

end Beat

/-- What is noticed of a call with its reply; a unit of work is counted without one. -/
def Notice.of (query : Option (Query α)) (reply : Option (Reply α)) : Notice α :=
  match query, reply with
  | some query, some reply => .call query reply
  | _, _ => .count

namespace Score

variable [Scalar α]

/-- What is noticed next, given the reply if it is a call, and how the score goes on. -/
def step? (pollInterval : Duration) (score : Score α) (reply : Option (Reply α)) :
    Option (Notice α × Score α) :=
  match score with
  | .playing (beat :: rest) =>
      (beat.answer pollInterval reply).map fun
        | .ok more => (.of (beat.query? pollInterval) reply, .playing (more ++ rest))
        | .error error => (.of (beat.query? pollInterval) reply, .broken error)
  | .playing [] =>
      match reply with
      | some (.told now) => some (.call .clock (.told now), .closed none)
      | _ => none
  | .broken error =>
      match reply with
      | some (.told now) => some (.call .clock (.told now), .closed (some error))
      | _ => none
  | .closed _ => none

/-- What is noticed of a score up to some moment. -/
inductive Plays (pollInterval : Duration) (start : Score α) :
    List (Notice α) → Score α → Prop where
  | begin : Plays pollInterval start [] start
  | step {past : List (Notice α)} {score next : Score α} {notice : Notice α}
      {reply : Option (Reply α)} (plays : Plays pollInterval start past score)
      (stepped : score.step? pollInterval reply = some (notice, next)) :
      Plays pollInterval start (past ++ [notice]) next

/-- Plays a score with given replies. -/
def play (pollInterval : Duration) (score : Score α) :
    List (Option (Reply α)) → Option (List (Notice α) × Score α)
  | [] => some ([], score)
  | reply :: replies => do
      let (notice, next) ← score.step? pollInterval reply
      let (trace, last) ← next.play pollInterval replies
      return (notice :: trace, last)

/-- What is played with given replies goes on from where a score has come to. -/
theorem Plays.append_play {pollInterval : Duration} {replies : List (Option (Reply α))}
    {start score last : Score α} {past trace : List (Notice α)}
    (plays : start.Plays pollInterval past score)
    (played : score.play pollInterval replies = some (trace, last)) :
    start.Plays pollInterval (past ++ trace) last := by
  induction replies generalizing score past trace with
  | nil =>
      cases played
      rwa [List.append_nil]
  | cons reply replies ih =>
      simp only [play, Option.bind_eq_bind, Option.bind_eq_some_iff, Option.pure_def] at played
      obtain ⟨⟨notice, next⟩, stepped, ⟨rest, _⟩, later, made⟩ := played
      cases made
      rw [← List.singleton_append, ← List.append_assoc]
      exact ih (plays.step stepped) later

end Score

end Scan
