import Scan.Proofs.Expansion
import Scan.Proofs.Motion

/-!
# Ideal runs

A run on a plant in exact time, in which nothing takes longer than it has to. A delay lasts its
seconds, a write that is waited for lasts until its readback first confirms it, and everything else
is done at once. There is at most one such run of given units of work from a given time on.
-/

namespace Scan

/-! ## Writes -/

/-- A write of a known value. -/
structure Write (α : Type) where
  channel : String
  value : α
  completion : Completion α

/-- The write that a unit of work makes, if its value is known. -/
def WorkUnit.write? {α : Type} [Scalar α] : WorkUnit α → Option (Write α)
  | .value sweep iteration => some ⟨sweep.channel, sweep.value iteration, sweep.completion⟩
  | .leaf (.set _ ⟨channel, .literal known, completion⟩) => some ⟨channel, known, completion⟩
  | .leaf _ => none

/-- What is polled for behind a write. -/
def Write.poll {α : Type} (write : Write α) : Poll α where
  id := 0
  channel := write.completion.readback
  comparison := .equals
  threshold := write.value
  tolerance := write.completion.tolerance
  limit := write.completion.timeout

/-- Whether a write is confirmed by its own channel, by nothing but its value, and however long
that takes. -/
def Completion.isExact {α : Type} [Scalar α] (completion : Completion α) (channel : String) :
    Bool :=
  completion.readback == channel && Scalar.same completion.tolerance Scalar.zero &&
    completion.timeout.isNone

/-- Whether a poll behind a write would end at a time. -/
def Plant.Confirms (plant : Plant Rat Rat) (write : Write Rat) (time : Rat) : Prop :=
  ∃ found, plant.read write.poll.channel time = .ok found ∧ write.poll.isSatisfied found = true

theorem Completion.isExact_iff {completion : Completion Rat} {channel : String} :
    completion.isExact channel = true ↔
      completion.readback = channel ∧ completion.tolerance = 0 ∧ completion.timeout = none := by
  have zero : Scalar.same completion.tolerance Scalar.zero = true ↔ completion.tolerance = 0 := by
    change (decide (completion.tolerance ≤ 0) && decide (0 ≤ completion.tolerance)) = true ↔ _
    rw [Bool.and_eq_true, decide_eq_true_iff, decide_eq_true_iff]
    exact antisymm_iff
  rw [isExact, Bool.and_eq_true, Bool.and_eq_true, beq_iff_eq, zero, Option.isNone_iff_eq_none,
    and_assoc]

/-- A write that is completed exactly is confirmed where its channel shows the value. -/
theorem Plant.confirms_iff {plant : Plant Rat Rat} {write : Write Rat}
    {channel : Channel Rat Rat} {time : Rat}
    (exact : write.completion.isExact write.channel = true)
    (found : plant.channels.get? write.channel = some channel) :
    plant.Confirms write time ↔ channel.valueAt time = write.value := by
  obtain ⟨own, narrow, -⟩ := Completion.isExact_iff.mp exact
  have satisfied : ∀ value, write.poll.isSatisfied value = true ↔ value = write.value := by
    intro value
    change decide (Scalar.abs (value - write.value) ≤ write.completion.tolerance) = true ↔ _
    rw [decide_eq_true_iff, Scalar.abs_eq, narrow, abs_nonpos_iff, sub_eq_zero]
  have read : plant.read write.poll.channel time = .ok (channel.valueAt time) := by
    rw [Write.poll, own]
    exact Plant.read_eq found
  rw [Confirms, read]
  constructor
  · rintro ⟨_, same, ends⟩
    cases same
    exact (satisfied _).mp ends
  · exact fun shown => ⟨_, rfl, (satisfied _).mpr shown⟩

/-- The time after which a write that is completed exactly is first confirmed: that of the way of
its channel. -/
theorem Plant.isLeast_confirms {plant : Plant Rat Rat} {write : Write Rat}
    {channel : Channel Rat Rat} (exact : write.completion.isExact write.channel = true) (now : Rat) :
    IsLeast {seconds | 0 ≤ seconds ∧ Plant.Confirms
        ⟨plant.channels.insert write.channel (channel.retarget write.value now)⟩ write
        (now + seconds)}
      (channel.arrival now write.value) := by
  simp only [Plant.confirms_iff exact (Table.get?_insert_self ..)]
  exact channel.isLeast_arrival now write.value

/-! ## Units of work -/

/-- How long a unit of work lasts that is begun on a plant at a time, and what the plant is like
behind it. A write with a limit of time has no ideal course, nor has one of an expression or a wait
for a channel. -/
inductive Plant.Takes (plant : Plant Rat Rat) (now : Rat) (unit : WorkUnit Rat) :
    Rat → Plant Rat Rat → Prop where
  | delay {description : String} {seconds : Rat} {duration : Duration}
      (same : unit = .leaf (.delay description seconds duration)) :
      Takes plant now unit seconds plant
  | comment {description text : String} (same : unit = .leaf (.comment description text)) :
      Takes plant now unit 0 plant
  | passed {write : Write Rat} {after : Plant Rat Rat} (writes : unit.write? = some write)
      (written : plant.write write.channel write.value now = .ok after)
      (passes : write.completion.wait = false) : Takes plant now unit 0 after
  | awaited {write : Write Rat} {after : Plant Rat Rat} {seconds : Rat}
      (writes : unit.write? = some write)
      (written : plant.write write.channel write.value now = .ok after)
      (waits : write.completion.wait = true) (unlimited : write.completion.timeout = none)
      (least : IsLeast {seconds | 0 ≤ seconds ∧ after.Confirms write (now + seconds)} seconds) :
      Takes plant now unit seconds after

/-- A unit of work lasts a certain time, if it has an ideal course at all. -/
theorem Plant.Takes.unique {plant after other : Plant Rat Rat} {now seconds time : Rat}
    {unit : WorkUnit Rat} (first : plant.Takes now unit seconds after)
    (second : plant.Takes now unit time other) : seconds = time ∧ after = other := by
  cases first with
  | delay same =>
      subst same
      cases second with
      | delay same => cases same; exact ⟨rfl, rfl⟩
      | comment same => cases same
      | passed writes | awaited writes => cases writes
  | comment same =>
      subst same
      cases second with
      | delay same => cases same
      | comment => exact ⟨rfl, rfl⟩
      | passed writes | awaited writes => cases writes
  | passed writes written passes =>
      cases second with
      | delay same | comment same => subst same; cases writes
      | passed rewrites rewritten =>
          cases writes.symm.trans rewrites
          cases written.symm.trans rewritten
          exact ⟨rfl, rfl⟩
      | awaited rewrites _ waits =>
          cases writes.symm.trans rewrites
          exact absurd (passes.symm.trans waits) Bool.false_ne_true
  | awaited writes written waits _ least =>
      cases second with
      | delay same | comment same => subst same; cases writes
      | passed rewrites _ passes =>
          cases writes.symm.trans rewrites
          exact absurd (passes.symm.trans waits) Bool.false_ne_true
      | awaited rewrites rewritten _ _ shortest =>
          cases writes.symm.trans rewrites
          cases written.symm.trans rewritten
          exact ⟨least.unique shortest, rfl⟩

/-! ## Runs -/

/-- One unit of work of an ideal run: the plant and the time at which it was begun, and how long it
lasted. -/
structure Leg where
  plant : Plant Rat Rat
  start : Rat
  unit : WorkUnit Rat
  seconds : Rat

/-- How long an ideal run lasts. -/
def Leg.duration (legs : List Leg) : Rat :=
  (legs.map Leg.seconds).sum

/-- The ideal run of units of work one after another. -/
inductive Plant.Runs : Plant Rat Rat → Rat → List (WorkUnit Rat) → List Leg → Prop where
  | nil {plant : Plant Rat Rat} {now : Rat} : Runs plant now [] []
  | cons {plant after : Plant Rat Rat} {now seconds : Rat} {unit : WorkUnit Rat}
      {rest : List (WorkUnit Rat)} {legs : List Leg} (takes : plant.Takes now unit seconds after)
      (goesOn : after.Runs (now + seconds) rest legs) :
      Runs plant now (unit :: rest) (⟨plant, now, unit, seconds⟩ :: legs)

namespace Plant.Runs

variable {plant : Plant Rat Rat} {now : Rat} {units : List (WorkUnit Rat)} {legs other : List Leg}

/-- There is one ideal run at the most. -/
theorem unique (first : plant.Runs now units legs) (second : plant.Runs now units other) :
    legs = other := by
  induction first generalizing other with
  | nil =>
      cases second
      rfl
  | cons takes _ ih =>
      cases second with
      | cons retakes goesOn =>
          obtain ⟨rfl, rfl⟩ := takes.unique retakes
          rw [ih goesOn]

/-- Every leg of an ideal run is one of the units of work, which takes its time. -/
theorem takes_of_mem (runs : plant.Runs now units legs) {leg : Leg} (member : leg ∈ legs) :
    leg.unit ∈ units ∧ ∃ after, leg.plant.Takes leg.start leg.unit leg.seconds after := by
  induction runs with
  | nil => cases member
  | cons takes _ ih =>
      rcases List.mem_cons.mp member with rfl | member
      · exact ⟨List.mem_cons_self, _, takes⟩
      · obtain ⟨own, taken⟩ := ih member
        exact ⟨List.mem_cons_of_mem _ own, taken⟩

end Plant.Runs

/-! ## Definite sequences -/

section Definite

variable {α : Type} [Scalar α] (test : String → Completion α → Bool)

namespace Command

mutual

/-- Whether a command is made of delays, notes and writes of known values whose completion passes a
test. -/
def isDefinite : Command α → Bool
  | .delay .. | .comment .. => true
  | .set _ ⟨channel, .literal _, completion⟩ => test channel completion
  | .set _ ⟨_, .expression _, _⟩ | .wait .. => false
  | .loop _ sweep body _ => test sweep.channel sweep.completion && areDefinite body
  | .group _ children _ => areDefinite children

/-- Whether commands are made of delays, notes and writes of known values whose completion passes a
test. -/
def areDefinite : List (Command α) → Bool
  | [] => true
  | command :: rest => isDefinite command && areDefinite rest

end

end Command

/-- A unit of work that is a delay, a note or a write of a known value whose completion passes a
test. -/
inductive WorkUnit.IsDefinite : WorkUnit α → Prop where
  | delay (description : String) (seconds : α) (duration : Duration) :
      IsDefinite (.leaf (.delay description seconds duration))
  | comment (description text : String) : IsDefinite (.leaf (.comment description text))
  | write {unit : WorkUnit α} {write : Write α} (writes : unit.write? = some write)
      (passes : test write.channel write.completion = true) : IsDefinite unit

variable {test} {unit : WorkUnit α}

theorem WorkUnit.IsDefinite.passes {write : Write α} (definite : unit.IsDefinite test)
    (writes : unit.write? = some write) : test write.channel write.completion = true := by
  cases definite with
  | delay | comment => cases writes
  | write rewrites passes =>
      cases writes.symm.trans rewrites
      exact passes

theorem WorkUnit.IsDefinite.mono {other : String → Completion α → Bool}
    (definite : unit.IsDefinite test)
    (weaker : ∀ channel completion, test channel completion = true →
      other channel completion = true) : unit.IsDefinite other := by
  cases definite with
  | delay description seconds duration => exact .delay description seconds duration
  | comment description text => exact .comment description text
  | write writes passes => exact .write writes (weaker _ _ passes)

namespace Command

mutual

/-- The units of a definite command are definite. -/
theorem isDefinite_of_mem_expand : (command : Command α) → command.isDefinite test = true →
    unit ∈ command.expand → unit.IsDefinite test
  | .loop _ sweep body _, definite, member => by
      rw [isDefinite, Bool.and_eq_true] at definite
      obtain ⟨turn, -, rfl | member⟩ := Sweep.mem_rounds.mp member
      · exact .write rfl definite.1
      · exact isDefinite_of_mem_expandAll body definite.2 member
  | .group _ children _, definite, member => isDefinite_of_mem_expandAll children definite member
  | .delay description seconds duration, _, member => by
      cases List.mem_singleton.mp member
      exact .delay description seconds duration
  | .comment description text, _, member => by
      cases List.mem_singleton.mp member
      exact .comment description text
  | .set description ⟨channel, .literal value, completion⟩, definite, member => by
      cases List.mem_singleton.mp member
      exact .write rfl definite
  | .set _ ⟨_, .expression _, _⟩, definite, _ => by cases definite
  | .wait .., definite, _ => by cases definite

/-- The units of definite commands are definite. -/
theorem isDefinite_of_mem_expandAll : (commands : List (Command α)) →
    areDefinite test commands = true → unit ∈ expandAll commands → unit.IsDefinite test
  | [], _, member => by cases member
  | command :: rest, definite, member => by
      rw [areDefinite, Bool.and_eq_true] at definite
      rcases List.mem_append.mp member with member | member
      · exact isDefinite_of_mem_expand command definite.1 member
      · exact isDefinite_of_mem_expandAll rest definite.2 member

end

end Command

end Definite

/-- Whether a write goes to one of some channels, which completes it exactly. -/
def Completion.isOwn {α : Type} [Scalar α] (names : List String) (channel : String)
    (completion : Completion α) : Bool :=
  names.contains channel && completion.isExact channel

namespace Plant

variable {plant : Plant Rat Rat} {now : Rat} {unit : WorkUnit Rat} {write : Write Rat}
variable {channel : Channel Rat Rat} {names : List String}

/-- How long a delay, a note or an exact write lasts, and what the plant is like behind it. -/
def follow (plant : Plant Rat Rat) (now : Rat) (unit : WorkUnit Rat) : Rat × Plant Rat Rat :=
  match unit with
  | .leaf (.delay _ seconds _) => (seconds, plant)
  | _ =>
      match unit.write? with
      | some write =>
          match plant.channels.get? write.channel with
          | some channel =>
              (if write.completion.wait then channel.arrival now write.value else 0,
                ⟨plant.channels.insert write.channel (channel.retarget write.value now)⟩)
          | none => (0, plant)
      | none => (0, plant)

/-- The ideal run of delays, notes and exact writes. -/
def itinerary (plant : Plant Rat Rat) (now : Rat) : List (WorkUnit Rat) → List Leg
  | [] => []
  | unit :: rest =>
      let (seconds, after) := plant.follow now unit
      ⟨plant, now, unit, seconds⟩ :: after.itinerary (now + seconds) rest

theorem follow_of_write (writes : unit.write? = some write)
    (found : plant.channels.get? write.channel = some channel) :
    plant.follow now unit =
      (if write.completion.wait then channel.arrival now write.value else 0,
        ⟨plant.channels.insert write.channel (channel.retarget write.value now)⟩) := by
  unfold follow
  split
  · cases writes
  · rw [writes]
    simp only [found]

/-- A definite unit of work that writes to channels of the plant has an ideal course. -/
theorem takes_follow (definite : unit.IsDefinite (Completion.isOwn names))
    (known : ∀ name ∈ names, (plant.channels.get? name).isSome) (now : Rat) :
    plant.Takes now unit (plant.follow now unit).1 (plant.follow now unit).2 := by
  cases definite with
  | delay => exact .delay rfl
  | comment => exact .comment rfl
  | write writes passes =>
      obtain ⟨listed, exact⟩ := Bool.and_eq_true_iff.mp passes
      obtain ⟨-, -, unlimited⟩ := Completion.isExact_iff.mp exact
      obtain ⟨channel, found⟩ :=
        Option.isSome_iff_exists.mp (known _ (List.contains_iff_mem.mp listed))
      rw [follow_of_write writes found]
      split
      · rename_i waits
        exact .awaited writes (write_eq found) waits unlimited (isLeast_confirms exact now)
      · rename_i passes
        exact .passed writes (write_eq found) (Bool.eq_false_of_not_eq_true passes)

/-- No channel of a plant is lost. -/
theorem Takes.isSome_get? {after : Plant Rat Rat} {seconds : Rat}
    (takes : plant.Takes now unit seconds after) {name : String}
    (known : (plant.channels.get? name).isSome) : (after.channels.get? name).isSome := by
  cases takes with
  | delay | comment => exact known
  | passed _ written | awaited _ written =>
      obtain ⟨channel, -, rfl⟩ := write_eq_ok written
      rw [Table.get?_insert]
      split
      · rfl
      · exact known

/-- Definite units of work that write to channels of the plant have an ideal run. -/
theorem runs_itinerary {units : List (WorkUnit Rat)}
    (definite : ∀ unit ∈ units, unit.IsDefinite (Completion.isOwn names))
    (known : ∀ name ∈ names, (plant.channels.get? name).isSome) (now : Rat) :
    plant.Runs now units (plant.itinerary now units) := by
  induction units generalizing plant now with
  | nil => exact .nil
  | cons unit rest ih =>
      obtain ⟨own, others⟩ := List.forall_mem_cons.mp definite
      have takes := takes_follow own known now
      exact .cons takes (ih others (fun name member => takes.isSome_get? (known name member)) _)

end Plant

end Scan
