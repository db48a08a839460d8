import Mathlib.Algebra.Order.BigOperators.Group.List
import Scan.Proofs.Ideal
import Scan.Proofs.Trace

/-!
# Estimates and ideal runs

A dry run reckons the way of a channel from the value that was written last, as if the channel had
reached it. So it does as long as every write is waited for, and then the estimate of a sequence is
the duration of its ideal run. A write that is not waited for leaves its channel on its way, and a
later one may find it farther from the new value than the dry run believes: the estimate falls short
by no more than the time that the channel then still needed.
-/

namespace Scan

/-! ## Legs -/

namespace Leg

/-- The channel and the value of a write that is waited for. -/
def awaited? (leg : Leg) : Option (Channel Rat Rat × Rat) :=
  match leg.unit.write? with
  | some write =>
      if write.completion.wait then
        (leg.plant.channels.get? write.channel).map fun channel => (channel, write.value)
      else none
  | none => none

/-- What a leg costs: the seconds of a delay, the way of a write that is waited for, or nothing. -/
def cost (leg : Leg) (way : Channel Rat Rat → Rat → Rat) : Rat :=
  match leg.unit with
  | .leaf (.delay _ seconds _) => seconds
  | _ => (leg.awaited?.map fun (channel, value) => way channel value).getD 0

/-- What a leg costs if every channel is where it was sent. -/
def reckoned (leg : Leg) : Rat :=
  leg.cost fun channel value => travelSeconds channel.pace? channel.target value

/-- The time that the channel of a write that is waited for still needs when it is written, to
reach the value that it was sent to before. -/
def lag (leg : Leg) : Rat :=
  (leg.awaited?.map fun (channel, _) => channel.arrival leg.start channel.target).getD 0

/-- Whether a write that is waited for finds its channel no farther from the new value than the
value is that it was sent to before. -/
def isNear (leg : Leg) : Bool :=
  leg.awaited?.all fun (channel, value) =>
    |value - channel.valueAt leg.start| ≤ |value - channel.target|

variable {leg : Leg} {write : Write Rat} {channel : Channel Rat Rat}

theorem cost_of_delay {description : String} {seconds : Rat} {duration : Duration}
    (delays : leg.unit = .leaf (.delay description seconds duration))
    (way : Channel Rat Rat → Rat → Rat) : leg.cost way = seconds := by
  rw [cost, delays]

theorem cost_of_comment {description text : String}
    (notes : leg.unit = .leaf (.comment description text)) (way : Channel Rat Rat → Rat → Rat) :
    leg.cost way = 0 := by
  rw [cost, awaited?, notes]
  rfl

theorem awaited?_of_write (writes : leg.unit.write? = some write)
    (found : leg.plant.channels.get? write.channel = some channel) :
    leg.awaited? = if write.completion.wait then some (channel, write.value) else none := by
  rw [awaited?, writes]
  simp only [found, Option.map_some]

theorem cost_of_write (writes : leg.unit.write? = some write)
    (found : leg.plant.channels.get? write.channel = some channel)
    (way : Channel Rat Rat → Rat → Rat) :
    leg.cost way = if write.completion.wait then way channel write.value else 0 := by
  unfold cost
  split
  · rename_i same
    rw [same] at writes
    cases writes
  · rw [awaited?_of_write writes found]
    cases write.completion.wait <;> rfl

/-- A leg whose write is completed exactly lasts as long as its channel has to go from where it
stands. -/
theorem seconds_eq {after : Plant Rat Rat}
    (takes : leg.plant.Takes leg.start leg.unit leg.seconds after)
    (definite : leg.unit.IsDefinite fun channel completion => completion.isExact channel) :
    leg.seconds = leg.cost fun channel value => channel.arrival leg.start value := by
  generalize length : leg.seconds = seconds at takes ⊢
  cases takes with
  | delay same => rw [cost_of_delay same]
  | comment same => rw [cost_of_comment same]
  | passed writes written passes =>
      obtain ⟨channel, found, -⟩ := Plant.write_eq_ok written
      rw [cost_of_write writes found, passes]
      rfl
  | awaited writes written waits _ least =>
      obtain ⟨channel, found, rfl⟩ := Plant.write_eq_ok written
      rw [cost_of_write writes found, waits]
      exact least.unique (Plant.isLeast_confirms (definite.passes writes) leg.start)

theorem lag_nonneg (leg : Leg) : 0 ≤ leg.lag := by
  unfold lag
  cases leg.awaited? with
  | none => exact le_rfl
  | some found => exact found.1.travelSeconds_nonneg _ _

/-- From where its channel stands a leg costs no more than is reckoned, and its lag. -/
theorem cost_arrival_le (leg : Leg) :
    (leg.cost fun channel value => channel.arrival leg.start value) ≤ leg.reckoned + leg.lag := by
  have way : ((leg.awaited?.map fun (channel, value) => channel.arrival leg.start value).getD 0) ≤
      ((leg.awaited?.map fun (channel, value) =>
        travelSeconds channel.pace? channel.target value).getD 0) + leg.lag := by
    unfold lag
    cases leg.awaited? with
    | none => exact (add_zero _).ge
    | some found => exact found.1.travelSeconds_triangle _ found.1.target found.2
  unfold reckoned cost
  split
  · exact le_add_of_nonneg_right leg.lag_nonneg
  · exact way

/-- The estimate of a leg that is near does not fall short. -/
theorem cost_arrival_le_of_isNear (near : leg.isNear = true) :
    (leg.cost fun channel value => channel.arrival leg.start value) ≤ leg.reckoned := by
  unfold reckoned cost
  unfold isNear at near
  split
  · exact le_rfl
  · generalize leg.awaited? = awaited at near ⊢
    cases awaited with
    | none => exact le_rfl
    | some found => exact found.1.travelSeconds_mono (of_decide_eq_true near)

end Leg

/-! ## Estimates -/

/-- A dry run believes of some channels of a plant that each is where it was sent, and knows how
fast it moves. -/
def Estimate.Tracks (estimate : Estimate Rat) (names : List String) (plant : Plant Rat Rat) :
    Prop :=
  ∀ name ∈ names, ∃ channel, plant.channels.get? name = some channel ∧
    estimate.values.get? name = some channel.target ∧
    estimate.profile.slewRate? name = channel.pace?

/-- A dry run of a configuration starts from what its plant is like at the start. -/
theorem Config.tracks_start {config : Config Rat} (distinct : config.channels.names.Nodup)
    (start : Rat) :
    (Estimate.start config.profile).Tracks config.channels.names (config.plant start) := by
  intro name member
  obtain ⟨known, found⟩ :=
    Option.isSome_iff_exists.mp ((Table.get?_isSome_iff config.channels name).mpr member)
  refine ⟨⟨known.initial, known.initial, known.slewRate, start⟩, ?_, ?_, ?_⟩
  · rw [config.get?_plant distinct, found]
    rfl
  · rw [Estimate.start, config.get?_initialValues, found]
    rfl
  · exact config.slewRate?_profile found

/-- A write of a known value is assigned and logged. -/
theorem WorkUnit.simulate_of_write {α : Type} [Scalar α] {unit : WorkUnit α} {write : Write α}
    (writes : unit.write? = some write) (evaluate : String → Except EvalError α)
    (before : Estimate α) :
    (unit.simulate (.quiet evaluate)).run.run before =
      (.ok (), (before.assign write.channel write.completion.readback write.value).log
        (unit.heading evaluate before)
        (write.completion.cost before write.channel write.value)) := by
  unfold write? at writes
  split at writes <;> cases writes <;> rfl

namespace Estimate.Tracks

variable {estimate : Estimate Rat} {names : List String} {plant : Plant Rat Rat}
variable {unit : WorkUnit Rat} {write : Write Rat}

/-- A write that is completed exactly costs what the way takes from where the channel was sent. -/
theorem cost_eq {channel : Channel Rat Rat} (tracks : estimate.Tracks names plant)
    (member : write.channel ∈ names) (found : plant.channels.get? write.channel = some channel) :
    write.completion.cost estimate write.channel write.value =
      if write.completion.wait then travelSeconds channel.pace? channel.target write.value
      else 0 := by
  obtain ⟨_, refound, known, moves⟩ := tracks write.channel member
  cases found.symm.trans refound
  unfold Completion.cost Estimate.travelTime travelSeconds
  rw [known, moves]
  cases channel.pace? with
  | none => rfl
  | some rate =>
      simp only [Scalar.abs_eq]
      rfl

/-- Channel and belief go together through a write. -/
theorem assign {channel : Channel Rat Rat} (tracks : estimate.Tracks names plant)
    (found : plant.channels.get? write.channel = some channel) (now : Rat) (label : String)
    (seconds : Rat) :
    ((estimate.assign write.channel write.channel write.value).log label seconds).Tracks names
      ⟨plant.channels.insert write.channel (channel.retarget write.value now)⟩ := by
  intro name member
  obtain ⟨other, refound, known, moves⟩ := tracks name member
  have assigned : (estimate.assign write.channel write.channel write.value).values =
      estimate.values.insert write.channel write.value := by
    simp [Estimate.assign, move]
  rw [log, assigned, Table.get?_insert, Table.get?_insert, profile_assign]
  by_cases same : name = write.channel
  · subst same
    cases found.symm.trans refound
    rw [if_pos rfl, if_pos rfl]
    exact ⟨_, rfl, rfl, moves⟩
  · rw [if_neg same, if_neg same]
    exact ⟨other, refound, known, moves⟩

/-- A dry run follows an ideal run through a unit of work: it cannot fail, and the estimate grows by
what the leg costs if every channel is where it was sent. -/
theorem follow (tracks : estimate.Tracks names plant)
    (definite : unit.IsDefinite (Completion.isOwn names))
    (evaluate : String → Except EvalError Rat) (now : Rat) :
    ∃ later, (unit.simulate (.quiet evaluate)).run.run estimate = (.ok (), later) ∧
      later.Tracks names (plant.follow now unit).2 ∧
      ∀ seconds, later.totalSeconds =
        estimate.totalSeconds + (⟨plant, now, unit, seconds⟩ : Leg).reckoned := by
  cases definite with
  | delay description seconds duration =>
      refine ⟨estimate.log description seconds, rfl, tracks, fun _ => ?_⟩
      rw [Leg.reckoned, Leg.cost_of_delay rfl]
      rfl
  | comment description text =>
      refine ⟨estimate.log description 0, rfl, tracks, fun _ => ?_⟩
      rw [Leg.reckoned, Leg.cost_of_comment rfl]
      rfl
  | write writes passes =>
      obtain ⟨listed, exact⟩ := Bool.and_eq_true_iff.mp passes
      have member := List.contains_iff_mem.mp listed
      obtain ⟨own, -⟩ := Completion.isExact_iff.mp exact
      obtain ⟨channel, found, -⟩ := tracks _ member
      have simulated := WorkUnit.simulate_of_write writes evaluate estimate
      rw [own, tracks.cost_eq member found] at simulated
      refine ⟨_, simulated, ?_, fun _ => ?_⟩
      · rw [Plant.follow_of_write writes found]
        exact tracks.assign found now _ _
      · rw [Leg.reckoned, Leg.cost_of_write writes found]
        simp [log]

/-- A dry run follows an ideal run through units of work. -/
theorem itinerary {units : List (WorkUnit Rat)} (tracks : estimate.Tracks names plant)
    (definite : ∀ unit ∈ units, unit.IsDefinite (Completion.isOwn names))
    (evaluate : String → Except EvalError Rat) (now : Rat) :
    ∃ later, estimate.through evaluate units = (.ok (), later) ∧
      later.totalSeconds =
        estimate.totalSeconds + ((plant.itinerary now units).map Leg.reckoned).sum := by
  induction units generalizing estimate plant now with
  | nil => exact ⟨estimate, rfl, (add_zero _).symm⟩
  | cons unit rest ih =>
      obtain ⟨own, others⟩ := List.forall_mem_cons.mp definite
      obtain ⟨halfway, simulated, tracks, grown⟩ := tracks.follow own evaluate now
      obtain ⟨later, through, total⟩ := ih tracks others (now + (plant.follow now unit).1)
      refine ⟨later, ?_, ?_⟩
      · rw [through_cons, simulated]
        exact through
      · rw [total, grown, Plant.itinerary, List.map_cons, List.sum_cons, add_assoc]

end Estimate.Tracks

/-! ## Rest -/

/-- Whether every channel of a plant is where it was sent. -/
def Plant.IsAtRest (plant : Plant Rat Rat) (now : Rat) : Prop :=
  ∀ name channel, plant.channels.get? name = some channel → channel.IsAtRest now

/-- The plant of a configuration starts at rest. -/
theorem Config.isAtRest_plant {config : Config Rat} (distinct : config.channels.names.Nodup)
    (start : Rat) : (config.plant start).IsAtRest start := by
  intro name channel found
  rw [config.get?_plant distinct, Option.map_eq_some_iff] at found
  obtain ⟨known, -, rfl⟩ := found
  cases moves : Channel.pace? _ with
  | none => exact Channel.isAtRest_of_pace_none moves start
  | some rate =>
      rw [Channel.isAtRest_iff moves]
      simp

/-- A plant at rest is at rest again behind a delay, a note or an exact write that is waited for. -/
theorem Plant.IsAtRest.takes {plant after : Plant Rat Rat} {now seconds : Rat}
    {unit : WorkUnit Rat} (rest : plant.IsAtRest now) (takes : plant.Takes now unit seconds after)
    (definite : unit.IsDefinite fun channel completion =>
      completion.wait && completion.isExact channel)
    (forward : unit.IsForward) : after.IsAtRest (now + seconds) := by
  cases takes with
  | delay same =>
      subst same
      have nonneg : 0 ≤ seconds := not_lt.mp (of_decide_eq_false forward)
      exact fun name channel found => (rest name channel found).mono (le_add_of_nonneg_right nonneg)
  | comment => rwa [add_zero]
  | passed writes _ passes =>
      have waits := (Bool.and_eq_true_iff.mp (definite.passes writes)).1
      exact absurd (passes.symm.trans waits) Bool.false_ne_true
  | awaited writes written _ _ least =>
      have exact := (Bool.and_eq_true_iff.mp (definite.passes writes)).2
      obtain ⟨channel, -, rfl⟩ := Plant.write_eq_ok written
      obtain ⟨⟨nonneg, confirmed⟩, -⟩ := least
      intro name other found
      rw [Table.get?_insert] at found
      split at found
      · cases found
        exact (Plant.confirms_iff exact (Table.get?_insert_self ..)).mp confirmed
      · exact (rest name other found).mono (le_add_of_nonneg_right nonneg)

/-- Every leg of a run whose writes are all waited for starts at rest. -/
theorem Plant.Runs.isAtRest {plant : Plant Rat Rat} {now : Rat} {units : List (WorkUnit Rat)}
    {legs : List Leg} (runs : plant.Runs now units legs) (rest : plant.IsAtRest now)
    (definite : ∀ unit ∈ units, unit.IsDefinite fun channel completion =>
      completion.wait && completion.isExact channel)
    (forward : ∀ unit ∈ units, unit.IsForward) :
    ∀ leg ∈ legs, leg.plant.IsAtRest leg.start := by
  induction runs with
  | nil => exact fun _ member => by cases member
  | cons takes _ ih =>
      obtain ⟨own, others⟩ := List.forall_mem_cons.mp definite
      obtain ⟨first, later⟩ := List.forall_mem_cons.mp forward
      exact List.forall_mem_cons.mpr ⟨rest, ih (rest.takes takes own first) others later⟩

/-- A leg that starts at rest lasts as long as is reckoned. -/
theorem Leg.cost_arrival_of_isAtRest {leg : Leg} (rest : leg.plant.IsAtRest leg.start) :
    (leg.cost fun channel value => channel.arrival leg.start value) = leg.reckoned := by
  unfold reckoned cost
  split
  · rfl
  · unfold awaited?
    split
    · split
      · cases found : leg.plant.channels.get? _ with
        | none => rfl
        | some channel => exact (rest _ channel found).arrival_eq _
      · rfl
    · rfl

/-! ## Sequences -/

section Sequences

variable {config : Config Rat} {sequence : Sequence} {pollInterval : Duration}
variable {sequencer : Sequencer Rat} {board : Board} {legs : List Leg}

/-- The units of work of a sequence that is accepted go forward. -/
theorem Sequencer.isForward_of_mem
    (accepted : Sequencer.ofSequence sequence pollInterval = .ok sequencer) :
    ∀ unit ∈ Command.expandAll sequencer.steps, unit.IsForward := by
  obtain ⟨compiled, -⟩ := ofSequence_eq_ok accepted
  exact Command.forall_expandAll_of_compileAll (fun _ _ => Command.isForward_of_compile)
    (fun _ _ => trivial) sequence.steps compiled

/-- A definite sequence has an ideal run on the plant of a configuration. -/
theorem Config.runs_itinerary (distinct : config.channels.names.Nodup)
    {units : List (WorkUnit Rat)}
    (definite : ∀ unit ∈ units, unit.IsDefinite (Completion.isOwn config.channels.names))
    (start : Rat) :
    (config.plant start).Runs start units ((config.plant start).itinerary start units) := by
  apply Plant.runs_itinerary definite
  intro name member
  obtain ⟨channel, found, -⟩ := Config.tracks_start distinct start name member
  rw [found]
  rfl

/-- The dry run of a definite sequence with the profile of a configuration reckons what the legs of
its ideal run cost if every channel is where it was sent. -/
theorem Sequencer.simulate_itinerary (distinct : config.channels.names.Nodup)
    (free : (sequencer.withBoard board).isTaken = false)
    (definite : ∀ unit ∈ Command.expandAll sequencer.steps,
      unit.IsDefinite (Completion.isOwn config.channels.names))
    (evaluate : String → Except EvalError Rat) (runId : String) (start : Rat) :
    ∃ report, ((sequencer.withBoard board).simulate config.profile evaluate runId).1 = .ok report ∧
      ∃ legs, (config.plant start).Runs start (Command.expandAll sequencer.steps) legs ∧
        report.totalSeconds = (legs.map Leg.reckoned).sum := by
  obtain ⟨later, through, total⟩ :=
    (Config.tracks_start distinct start).itinerary definite evaluate start
  have simulated : ((sequencer.withBoard board).simulate config.profile evaluate runId).1 =
      .ok ⟨runId, sequencer.sequence.name, later.totalSeconds, sequencer.totalWork,
        later.steps.toList⟩ := by
    rw [simulate_eq free, dryRun_eq, through]
    rfl
  exact ⟨_, simulated, _, Config.runs_itinerary distinct definite start, total.trans (zero_add _)⟩

/-- The duration of an ideal run is what its legs cost from where the channels stand. -/
theorem Plant.Runs.duration_eq {plant : Plant Rat Rat} {now : Rat} {units : List (WorkUnit Rat)}
    (runs : plant.Runs now units legs)
    (definite : ∀ unit ∈ units,
      unit.IsDefinite fun channel completion => completion.isExact channel) :
    Leg.duration legs =
      (legs.map fun leg => leg.cost fun channel value => channel.arrival leg.start value).sum := by
  unfold Leg.duration
  congr 1
  apply List.map_congr_left
  intro leg member
  obtain ⟨own, _, takes⟩ := runs.takes_of_mem member
  exact Leg.seconds_eq takes (definite _ own)

/-- The step with no tolerance. -/
def Descriptor.exactly (descriptor : Descriptor) : Descriptor :=
  descriptor.withParam "tolerance" (.float 0)

/-- A channel with a rate and one without. -/
def Config.ofTwoChannels : Config Rat where
  pollIntervalMs := 100
  channels := [("a", { initial := 0, slewRate := some 2 }), ("b", { initial := 1 })]
  logging := {
    verbose := false
    format := { showTime := false, location := ⟨false, false⟩ }
    levels := ⟨false, false, false, false⟩ }

/-- If every write of a sequence is waited for, its dry run with the profile of a configuration
estimates exactly the duration of its ideal run on the plant of the configuration. -/
theorem estimate_is_duration (distinct : config.channels.names.Nodup)
    (accepted : Sequencer.ofSequence sequence pollInterval = .ok sequencer)
    (free : (sequencer.withBoard board).isTaken = false)
    (awaited : Command.areDefinite (fun channel completion =>
      completion.wait && completion.isOwn config.channels.names channel) sequencer.steps = true)
    (evaluate : String → Except EvalError Rat) (runId : String) (start : Rat) :
    ∃ report, ((sequencer.withBoard board).simulate config.profile evaluate runId).1 = .ok report ∧
      (∃ legs, (config.plant start).Runs start (Command.expandAll sequencer.steps) legs) ∧
      ∀ legs, (config.plant start).Runs start (Command.expandAll sequencer.steps) legs →
        Leg.duration legs = report.totalSeconds := by
  have own : ∀ unit ∈ Command.expandAll sequencer.steps,
      unit.IsDefinite (Completion.isOwn config.channels.names) := by
    intro unit member
    exact (Command.isDefinite_of_mem_expandAll _ awaited member).mono (by simp)
  have exact : ∀ unit ∈ Command.expandAll sequencer.steps, unit.IsDefinite
      fun channel completion => completion.wait && completion.isExact channel := by
    intro unit member
    apply (Command.isDefinite_of_mem_expandAll _ awaited member).mono
    simp +contextual [Completion.isOwn]
  obtain ⟨report, simulated, legs, runs, total⟩ :=
    sequencer.simulate_itinerary distinct free own evaluate runId start
  refine ⟨report, simulated, ⟨legs, runs⟩, ?_⟩
  intro other reruns
  cases runs.unique reruns
  have rest := runs.isAtRest (Config.isAtRest_plant distinct start) exact
    (Sequencer.isForward_of_mem accepted)
  rw [total, runs.duration_eq fun unit member => (exact unit member).mono (by simp)]
  congr 1
  apply List.map_congr_left
  exact fun leg member => Leg.cost_arrival_of_isAtRest (rest leg member)

/-- Two passes through a loop, around a write to a channel without a rate and a delay, and the way
back: the estimate of four seconds is the duration. -/
theorem estimate_of_way_there_and_back_is_duration :
    ∃ (sequencer : Sequencer Rat) (board : Board) (report : SimulationReport Rat)
      (legs : List Leg),
      ((sequencer.withBoard board).simulate Config.ofTwoChannels.profile (fun _ => .ok 0) "pass").1 =
          .ok report ∧
        report.totalSeconds = 4 ∧
        (Config.ofTwoChannels.plant 0).Runs 0 (Command.expandAll sequencer.steps) legs ∧
        Leg.duration legs = 4 := by
  have rehearsed : Scene.rehearse (α := Rat)
      ⟨none, [(Descriptor.loopOver "a" 1 3 2 [(Descriptor.set "b" 5).exactly, .delay 0.5]).exactly,
        (Descriptor.set "a" 0).exactly]⟩ ⟨2000000⟩ []
      (fun _ scene => !scene.sequencer.isTaken &&
        (Command.areDefinite (fun channel completion => completion.wait &&
          completion.isOwn Config.ofTwoChannels.channels.names channel) scene.sequencer.steps &&
        (scene.sequencer.simulate Config.ofTwoChannels.profile (fun _ => .ok 0)
          "pass").1.toOption.any fun report => report.totalSeconds == 4)) = true := by
    decide +kernel
  obtain ⟨sequencer, _, scene, accepted, plays, test⟩ := Scene.exists_of_rehearse rehearsed
  rw [plays.sound.own, Bool.and_eq_true, Bool.and_eq_true, Bool.not_eq_true'] at test
  obtain ⟨free, awaited, test⟩ := test
  obtain ⟨report, simulated, ⟨legs, runs⟩, duration⟩ :=
    estimate_is_duration (by decide) accepted free awaited (fun _ => .ok 0) "pass" 0
  rw [simulated] at test
  have total : report.totalSeconds = 4 := eq_of_beq test
  exact ⟨sequencer, scene.board, report, legs, simulated, total, runs,
    (duration legs runs).trans total⟩

/-- The dry run of a definite sequence falls short of its ideal run by no more than the lags of the
writes that are waited for, and not at all if none of them finds its channel farther from the new
value than the dry run believes. -/
theorem estimate_falls_short_by_lags (distinct : config.channels.names.Nodup)
    (free : (sequencer.withBoard board).isTaken = false)
    (definite : Command.areDefinite (Completion.isOwn config.channels.names) sequencer.steps = true)
    (evaluate : String → Except EvalError Rat) (runId : String) (start : Rat) :
    ∃ report, ((sequencer.withBoard board).simulate config.profile evaluate runId).1 = .ok report ∧
      (∃ legs, (config.plant start).Runs start (Command.expandAll sequencer.steps) legs) ∧
      ∀ legs, (config.plant start).Runs start (Command.expandAll sequencer.steps) legs →
        Leg.duration legs ≤ report.totalSeconds + (legs.map Leg.lag).sum ∧
        ((∀ leg ∈ legs, leg.isNear = true) → Leg.duration legs ≤ report.totalSeconds) := by
  have own : ∀ unit ∈ Command.expandAll sequencer.steps,
      unit.IsDefinite (Completion.isOwn config.channels.names) :=
    fun _ => Command.isDefinite_of_mem_expandAll _ definite
  have exact : ∀ unit ∈ Command.expandAll sequencer.steps,
      unit.IsDefinite fun channel completion => completion.isExact channel := by
    intro unit member
    apply (own unit member).mono
    exact fun channel completion passes => (Bool.and_eq_true_iff.mp passes).2
  obtain ⟨report, simulated, legs, runs, total⟩ :=
    sequencer.simulate_itinerary distinct free own evaluate runId start
  refine ⟨report, simulated, ⟨legs, runs⟩, ?_⟩
  intro other reruns
  cases runs.unique reruns
  rw [total, runs.duration_eq exact]
  constructor
  · rw [← List.sum_map_add]
    exact List.sum_le_sum fun leg _ => leg.cost_arrival_le
  · intro near
    exact List.sum_le_sum fun leg member => Leg.cost_arrival_le_of_isNear (near leg member)

/-- The step without a wait for its end. -/
def Descriptor.passing (descriptor : Descriptor) : Descriptor :=
  descriptor.withParam "wait" (.bool false)

/-- A write that is not waited for, and one of the same value that is: the dry run believes that the
channel is there already, and the run has five seconds to wait. -/
theorem passed_write_outlasts_estimate :
    ∃ (sequencer : Sequencer Rat) (board : Board) (report : SimulationReport Rat)
      (legs : List Leg),
      Config.ofTwoChannels.channels.names.Nodup ∧
        Sequencer.ofSequence ⟨none, [(Descriptor.set "a" 10).exactly.passing,
          (Descriptor.set "a" 10).exactly]⟩ ⟨2000000⟩ = .ok sequencer ∧
        Command.areDefinite (Completion.isOwn Config.ofTwoChannels.channels.names)
          sequencer.steps = true ∧
        ((sequencer.withBoard board).simulate Config.ofTwoChannels.profile (fun _ => .ok 0)
          "pass").1 = .ok report ∧
        (Config.ofTwoChannels.plant 0).Runs 0 (Command.expandAll sequencer.steps) legs ∧
        report.totalSeconds = 0 ∧ Leg.duration legs = 5 := by
  have rehearsed : Scene.rehearse (α := Rat)
      ⟨none, [(Descriptor.set "a" 10).exactly.passing, (Descriptor.set "a" 10).exactly]⟩
      ⟨2000000⟩ []
      (fun _ scene =>
        Command.areDefinite (Completion.isOwn Config.ofTwoChannels.channels.names)
          scene.sequencer.steps &&
        (Leg.duration ((Config.ofTwoChannels.plant 0).itinerary 0
          (Command.expandAll scene.sequencer.steps)) == 5 &&
        (scene.sequencer.simulate Config.ofTwoChannels.profile (fun _ => .ok 0)
          "pass").1.toOption.any fun report => report.totalSeconds == 0)) = true := by
    decide +kernel
  obtain ⟨sequencer, _, scene, accepted, plays, test⟩ := Scene.exists_of_rehearse rehearsed
  rw [plays.sound.own, Bool.and_eq_true, Bool.and_eq_true] at test
  obtain ⟨definite, duration, test⟩ := test
  cases simulated : ((sequencer.withBoard scene.board).simulate Config.ofTwoChannels.profile
      (fun _ => .ok 0) "pass").1 with
  | ok report =>
      rw [simulated] at test
      have runs := Config.runs_itinerary (by decide)
        (fun _ => Command.isDefinite_of_mem_expandAll sequencer.steps definite) 0
      exact ⟨sequencer, scene.board, report, _, by decide, accepted, definite, simulated, runs,
        eq_of_beq test, eq_of_beq duration⟩
  | error error =>
      rw [simulated] at test
      cases test

/-- A write that is not waited for, a delay of two seconds and the way back: the channel comes back
from four, and the dry run believes from ten. -/
theorem estimate_of_early_return_is_enough :
    ∃ (sequencer : Sequencer Rat) (board : Board) (report : SimulationReport Rat)
      (legs : List Leg),
      ((sequencer.withBoard board).simulate Config.ofTwoChannels.profile (fun _ => .ok 0) "pass").1 =
          .ok report ∧
        report.totalSeconds = 7 ∧
        (Config.ofTwoChannels.plant 0).Runs 0 (Command.expandAll sequencer.steps) legs ∧
        (legs.map Leg.lag).sum = 3 ∧ Leg.duration legs ≤ 7 := by
  have rehearsed : Scene.rehearse (α := Rat)
      ⟨none, [(Descriptor.set "a" 10).exactly.passing, .delay 2, (Descriptor.set "a" 0).exactly]⟩
      ⟨2000000⟩ []
      (fun _ scene => !scene.sequencer.isTaken &&
        (Command.areDefinite (Completion.isOwn Config.ofTwoChannels.channels.names)
          scene.sequencer.steps &&
        (let legs := (Config.ofTwoChannels.plant 0).itinerary 0
          (Command.expandAll scene.sequencer.steps)
        (legs.map Leg.lag).sum == 3 && legs.all Leg.isNear &&
        (scene.sequencer.simulate Config.ofTwoChannels.profile (fun _ => .ok 0)
          "pass").1.toOption.any fun report => report.totalSeconds == 7))) = true := by
    decide +kernel
  obtain ⟨sequencer, _, scene, accepted, plays, test⟩ := Scene.exists_of_rehearse rehearsed
  rw [plays.sound.own, Bool.and_eq_true, Bool.and_eq_true, Bool.not_eq_true',
    Bool.and_eq_true, Bool.and_eq_true] at test
  obtain ⟨free, definite, ⟨lag, near⟩, test⟩ := test
  obtain ⟨report, simulated, -, bounds⟩ :=
    estimate_falls_short_by_lags (by decide) free definite (fun _ => .ok 0) "pass" 0
  have runs := Config.runs_itinerary (by decide)
    (fun _ => Command.isDefinite_of_mem_expandAll sequencer.steps definite) 0
  rw [simulated] at test
  have total : report.totalSeconds = 7 := eq_of_beq test
  have enough := (bounds _ runs).2 (List.all_eq_true.mp near)
  exact ⟨sequencer, scene.board, report, _, simulated, total, runs, eq_of_beq lag,
    enough.trans_eq total⟩

end Sequences

end Scan
