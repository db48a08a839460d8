import Scan.Proofs.Foregone
import Scan.Proofs.Motion
import Scan.Proofs.Readers

/-!
# Waits that are made again

A dry run leaves the channel of a wait at the threshold, unless it is believed to satisfy the
condition already. The threshold itself satisfies every comparison but the strict ones. So the same
wait, made again on the same channel, is free for the others, while one for a channel to be above or
below a value is never met by its own doing and costs its limit each time.
-/

namespace Scan

/-! ## Conditions -/

namespace Comparison

/-- Whether a comparison is not satisfied by the threshold itself. -/
def isStrict : Comparison → Bool
  | above | below => true
  | _ => false

/-- The threshold itself satisfies a comparison just if it is not a strict one. -/
theorem holds_self {tolerance : Rat} (tolerant : 0 ≤ tolerance) (comparison : Comparison)
    (threshold : Rat) : comparison.holds threshold threshold tolerance = !comparison.isStrict := by
  cases comparison <;> simp [holds, isStrict, Scalar.le, Scalar.lt, Scalar.abs, tolerant]

end Comparison

namespace Duration

/-- In exact arithmetic a length of time is its nanoseconds. -/
theorem seconds_eq (duration : Duration) :
    (duration.seconds : Rat) = duration.nanoseconds / second := by
  have positive : (second : Rat) ≠ 0 := by norm_num [second]
  have parts : (second : Rat) * (duration.nanoseconds / second : Nat) +
      (duration.nanoseconds % second : Nat) = duration.nanoseconds := by
    exact_mod_cast Nat.div_add_mod duration.nanoseconds second
  change ((duration.nanoseconds / second : Nat) : Rat) +
    (duration.nanoseconds % second : Nat) / (second : Nat) = duration.nanoseconds / second
  rw [eq_div_iff positive, add_mul, div_mul_cancel₀ _ positive, mul_comm, parts]

/-- A limit that can be given costs something in exact arithmetic as well. -/
theorem IsLimit.same_seconds_zero_exact {limit : Duration} (given : limit.IsLimit) :
    Scalar.same (limit.seconds : Rat) Scalar.zero = false := by
  have positive : (0 : Rat) < limit.seconds := by
    rw [seconds_eq]
    exact div_pos (Nat.cast_pos.mpr given.1) (by norm_num [second])
  have late : Scalar.le (limit.seconds : Rat) Scalar.zero = false :=
    decide_eq_false (not_le.mpr positive)
  rw [Scalar.same, late, Bool.false_and]

end Duration

namespace Condition

variable {condition : Condition Rat} {before : Estimate Rat} {desired value : Rat}

/-- Whether a value satisfies a condition, if the threshold is reckoned from what was known before
the wait. -/
def IsSatisfiedBy (condition : Condition Rat) (before : Estimate Rat) (desired value : Rat) :
    Prop :=
  condition.comparison.holds value (condition.target before desired) condition.tolerance = true

theorem target_of_absolute (absolute : condition.comparison.isRelative = false)
    (before : Estimate Rat) (desired : Rat) : condition.target before desired = desired := by
  rw [target]
  cases before.values.get? condition.channel with
  | none => rfl
  | some value =>
      cases comparison : condition.comparison <;>
        simp_all [Comparison.threshold, Comparison.isRelative]

theorem isMet_iff (known : before.values.get? condition.channel = some value) :
    condition.isMet before desired = true ↔ condition.comparison.isRelative = false ∧
      condition.comparison.holds value desired condition.tolerance = true := by
  simp [isMet, known]

/-- A wait that is met leaves all channels where they are. -/
theorem values_estimateWait_of_isMet (met : condition.isMet before desired = true)
    (label : String) : (condition.estimateWait label desired before).values = before.values := by
  rw [estimateWait, if_pos met, Estimate.log]

/-- A wait that is not met moves its channel to the threshold. -/
theorem values_estimateWait_of_not_isMet (unmet : condition.isMet before desired = false)
    (label : String) : (condition.estimateWait label desired before).values =
      before.values.insert condition.channel (condition.target before desired) := by
  rw [estimateWait, if_neg (by simp [unmet])]
  cases condition.timeout <;> rfl

/-- After a wait its channel is known to stand somewhere: where it was if the wait was met there,
else at the threshold. -/
theorem exists_value_estimateWait (condition : Condition Rat) (label : String) (desired : Rat)
    (before : Estimate Rat) : ∃ value,
      (condition.estimateWait label desired before).values.get? condition.channel = some value ∧
      (condition.isMet before desired = true →
        before.values.get? condition.channel = some value) ∧
      (condition.isMet before desired = false → value = condition.target before desired) := by
  cases met : condition.isMet before desired with
  | true =>
      rw [values_estimateWait_of_isMet met]
      cases known : before.values.get? condition.channel with
      | none => simp [isMet, known] at met
      | some value =>
          refine ⟨value, rfl, fun _ => rfl, ?_⟩
          intro unmet
          cases unmet
  | false =>
      rw [values_estimateWait_of_not_isMet met, Table.get?_insert_self]
      refine ⟨_, rfl, ?_, fun _ => rfl⟩
      intro met
      cases met

/-- A wait moves no other channel. -/
theorem get?_estimateWait_of_ne {channel : String} (other : channel ≠ condition.channel)
    (label : String) : (condition.estimateWait label desired before).values.get? channel =
      before.values.get? channel := by
  cases met : condition.isMet before desired with
  | true => rw [values_estimateWait_of_isMet met]
  | false => rw [values_estimateWait_of_not_isMet met, Table.get?_insert_of_ne _ _ other]

/-- Where a channel stands after a wait satisfies the condition, unless this is strict and was not
met before. -/
theorem isSatisfiedBy_iff (tolerant : 0 ≤ condition.tolerance)
    (stays : condition.isMet before desired = true →
      before.values.get? condition.channel = some value)
    (moves : condition.isMet before desired = false → value = condition.target before desired) :
    condition.IsSatisfiedBy before desired value ↔
      (condition.comparison.isStrict = true → condition.isMet before desired = true) := by
  cases met : condition.isMet before desired with
  | true =>
      obtain ⟨absolute, holds⟩ := (isMet_iff (stays met)).mp met
      rw [IsSatisfiedBy, target_of_absolute absolute]
      exact iff_of_true holds fun _ => rfl
  | false =>
      rw [IsSatisfiedBy, moves met, Comparison.holds_self tolerant]
      simp

end Condition

/-! ## Compiled waits -/

/-- The tolerance of a wait that is compiled is not negative. -/
theorem Command.tolerance_nonneg_of_compile {descriptor : Descriptor} {description : String}
    {condition : Condition Rat}
    (compiled : compile descriptor = .ok (.wait description condition)) :
    0 ≤ condition.tolerance := by
  have read := waitOf_of_compile compiled
  simp only [waitOf, bind_eq_ok, pure, Except.pure] at read
  obtain ⟨_, _, _, _, _, _, _, _, _, _, tolerance, tolerant, _, _, made⟩ := read
  cases made
  change 0 ≤ tolerance.getD defaultTolerance
  rcases Descriptor.nonNegative?_eq_ok.mp tolerant with ⟨-, rfl⟩ | ⟨given, -, natural, rfl⟩
  · decide +kernel
  · exact not_lt.mp (of_decide_eq_false natural)

/-- The descriptor of a wait that has half a minute for a channel to compare to ten. -/
def Descriptor.reachTen (comparison : Comparison) : Descriptor :=
  ((Descriptor.wait "a" comparison.name 10).withParam "timeout" (.float 30)).withLabel "reach"

/-- What this wait is for. -/
def Condition.reachTen (comparison : Comparison) : Condition Rat :=
  ⟨"a", comparison, .literal 10, defaultTolerance, some ⟨30 * Duration.second⟩⟩

theorem Command.compile_reachTen (comparison : Comparison) :
    Command.compile (.reachTen comparison) = .ok (.wait "reach" (.reachTen comparison)) := by
  have known : Command.comparisonOf (.reachTen comparison) = .ok comparison := by
    have named : (Descriptor.reachTen comparison).text? "comparison" =
        .ok (some comparison.name) := by
      cases comparison <;> rfl
    rw [Command.comparisonOf, named]
    simp only [bind, Except.bind, Comparison.parse?_name]
    rfl
  have value : (Descriptor.reachTen comparison).quantity "value" = .ok (.literal (10 : Rat)) := by
    have number : (Descriptor.reachTen comparison).number "value" = .ok (10 : Rat) :=
      Descriptor.number_eq_ok.mpr (by cases comparison <;> decide +kernel)
    change ((Descriptor.reachTen comparison).number "value").map Quantity.literal = _
    rw [number]
    rfl
  have limit : (Descriptor.reachTen comparison).timeout? Rat "timeout" =
      .ok (some ⟨30 * Duration.second⟩) := by
    have seconds : (Descriptor.reachTen comparison).nonNegative? "timeout" =
        .ok (some (30 : Rat)) :=
      Descriptor.nonNegative?_eq_ok.mpr
        (.inr ⟨30, by cases comparison <;> decide +kernel, by decide +kernel, rfl⟩)
    have counted : Duration.ofSeconds? (30 : Rat) = some ⟨30 * Duration.second⟩ := by
      decide +kernel
    rw [Descriptor.timeout?, Descriptor.duration, seconds]
    simp only [bind, Except.bind, Option.getD_some, counted]
    rfl
  have read : Command.waitOf (.reachTen comparison) =
      .ok (.wait "reach" (.reachTen comparison)) := by
    simp only [Command.waitOf, bind_eq_ok]
    exact ⟨(), rfl, (), rfl, "a", rfl, comparison, known, .literal 10, value, none, rfl, _, limit,
      rfl⟩
  have own : Command.compile (α := Rat) (.reachTen comparison) =
      Defect.under "wait" (Command.waitOf (.reachTen comparison)) := rfl
  rw [own, read]
  rfl

/-! ## Repetitions -/

/-- What may come after a wait in a dry run as long as nothing else moves its channel: the same
wait, as often as one likes, and anything that leaves the channel where it is believed to stand. The
entries of the repeated waits are kept. -/
inductive Condition.Revisits (condition : Condition Rat) (description : String)
    (start : Estimate Rat) : List (SimulationStep Rat) → Estimate Rat → Prop where
  | begin : Revisits condition description start [] start
  | elsewhere {entries : List (SimulationStep Rat)} {now later : Estimate Rat}
      (past : Revisits condition description start entries now)
      (stays : later.values.get? condition.channel = now.values.get? condition.channel) :
      Revisits condition description start entries later
  | again {entries : List (SimulationStep Rat)} {now later : Estimate Rat}
      {evaluate : String → Except EvalError Rat} {number : Nat} {entry : SimulationStep Rat}
      (past : Revisits condition description start entries now)
      (dry : ((Command.wait description condition).simulate (.quiet evaluate) number).run.run now =
        (.ok (), later))
      (added : later.steps = now.steps.push entry) :
      Revisits condition description start (entries ++ [entry]) later

section Repetitions

variable {condition : Condition Rat} {description : String} {desired value : Rat}
variable (limited : ∀ limit, condition.timeout = some limit → limit.IsLimit)
variable (absolute : condition.comparison.isRelative = false)
include limited absolute

variable (description) in
/-- Once more the same wait is free just if it is satisfied where its channel stands, and leaves the
channel there, be it because it is satisfied or because this is the threshold. -/
theorem Condition.estimateWait_again {now : Estimate Rat}
    (stands : now.values.get? condition.channel = some value)
    (settled : condition.comparison.holds value desired condition.tolerance = false →
      value = desired) :
    ∃ entry, (condition.estimateWait description desired now).steps = now.steps.push entry ∧
      (entry.IsFree description ↔
        condition.comparison.holds value desired condition.tolerance = true) ∧
      (condition.estimateWait description desired now).values.get? condition.channel =
        some value := by
  have met : condition.isMet now desired = true ↔ _ := isMet_iff stands
  rw [and_iff_right absolute] at met
  obtain ⟨_, waited⟩ := condition.estimateWait_eq description desired now
  refine ⟨⟨if condition.isUnbounded now desired then description ++ " - unbounded"
    else description, condition.cost now desired⟩, by rw [waited]; rfl, ?_, ?_⟩
  · rw [isFree_iff rfl fun limit bounded => (limited limit bounded).same_seconds_zero_exact, met]
  · obtain ⟨after, known, stays, moves⟩ :=
      condition.exists_value_estimateWait description desired now
    rw [known]
    cases early : condition.isMet now desired with
    | true => rw [← stays early, stands]
    | false =>
        have unmet : condition.comparison.holds value desired condition.tolerance = false := by
          rw [← Bool.not_eq_true, ← met, early]
          simp
        rw [moves early, target_of_absolute absolute, settled unmet]

/-- However often the same wait is made again, its channel stays where it stands, and the wait is
free each time or never. -/
theorem Condition.Revisits.stands (literal : condition.value = .literal desired)
    {start later : Estimate Rat} {entries : List (SimulationStep Rat)}
    (revisits : condition.Revisits description start entries later)
    (known : start.values.get? condition.channel = some value)
    (settled : condition.comparison.holds value desired condition.tolerance = false →
      value = desired) :
    later.values.get? condition.channel = some value ∧
      ∀ entry ∈ entries, entry.IsFree description ↔
        condition.comparison.holds value desired condition.tolerance = true := by
  induction revisits with
  | begin => exact ⟨known, List.forall_mem_nil _⟩
  | elsewhere _ stays ih => exact ⟨stays.trans ih.1, ih.2⟩
  | again _ dry added ih =>
      rw [Command.simulate_wait literal, Prod.mk.injEq] at dry
      obtain ⟨-, rfl⟩ := dry
      obtain ⟨entry, pushed, free, stands⟩ :=
        Condition.estimateWait_again description limited absolute ih.1 settled
      obtain ⟨rfl, -⟩ := Array.push_eq_push.mp (added.symm.trans pushed)
      refine ⟨stands, fun found member => ?_⟩
      rcases List.mem_append.mp member with earlier | last
      · exact ih.2 found earlier
      · cases List.mem_singleton.mp last
        exact free

end Repetitions

/-- What a wait for a given value makes of its channel in a dry run, in exact arithmetic and
whatever is known before. Afterwards the channel is believed to stand where it was, if it satisfied
the condition there, and else at the threshold; other channels are left alone. There it satisfies
the condition, unless the comparison is a strict one that was not met before. If the threshold does
not depend on where the channel stood, the same wait may be made again as often as one likes: as
long as nothing else moves the channel, it stays where it is, and each of these waits is free and
without a note just if the condition is satisfied there. -/
theorem waits_meet_their_condition_unless_strict {descriptor : Descriptor} {description : String}
    {condition : Condition Rat} {desired : Rat}
    (compiled : Command.compile descriptor = .ok (.wait description condition))
    (literal : condition.value = .literal desired) (before : Estimate Rat)
    (evaluate : String → Except EvalError Rat) (number : Nat) :
    ∃ after value,
      ((Command.wait description condition).simulate (.quiet evaluate) number).run.run before =
          (.ok (), after) ∧
        after.values.get? condition.channel = some value ∧
        (∀ channel ≠ condition.channel,
          after.values.get? channel = before.values.get? channel) ∧
        (condition.isMet before desired = true →
          before.values.get? condition.channel = some value) ∧
        (condition.isMet before desired = false → value = condition.target before desired) ∧
        (condition.IsSatisfiedBy before desired value ↔
          (condition.comparison.isStrict = true → condition.isMet before desired = true)) ∧
        (condition.comparison.isRelative = false → ∀ entries later,
          condition.Revisits description after entries later →
            later.values.get? condition.channel = some value ∧
              ∀ entry ∈ entries, entry.IsFree description ↔
                condition.IsSatisfiedBy before desired value) := by
  obtain ⟨value, known, stays, moves⟩ :=
    condition.exists_value_estimateWait description desired before
  refine ⟨condition.estimateWait description desired before, value,
    Command.simulate_wait literal evaluate number before, known,
    fun channel other => Condition.get?_estimateWait_of_ne other description, stays, moves,
    Condition.isSatisfiedBy_iff (Command.tolerance_nonneg_of_compile compiled) stays moves, ?_⟩
  intro absolute entries later revisits
  have target := Condition.target_of_absolute absolute before desired
  rw [Condition.IsSatisfiedBy, target]
  refine revisits.stands (fun limit => Command.isLimit_of_compile compiled) absolute literal known
    fun unsatisfied => ?_
  cases met : condition.isMet before desired with
  | true =>
      obtain ⟨-, holds⟩ := (Condition.isMet_iff (stays met)).mp met
      cases unsatisfied.symm.trans holds
  | false => rw [moves met, target]

/-- A channel that was waited for to be no lower than ten is believed to stand at ten, and to wait
for it again is free. -/
theorem wait_for_bound_is_free_again :
    let command : Command Rat := .wait "reach" (.reachTen .atLeast)
    let before : Estimate Rat := .start ⟨[("a", ⟨some 0, none⟩)], none⟩
    let dry := fun estimate => (command.simulate (.quiet fun _ => .ok 0) 0).run.run estimate
    ∃ after later entry, dry before = (.ok (), after) ∧ after.values.get? "a" = some 10 ∧
      dry after = (.ok (), later) ∧ later.steps = after.steps.push entry ∧
      entry.IsFree "reach" := by
  intro command before dry
  obtain ⟨after, value, first, known, -, -, moves, satisfied, again⟩ :=
    waits_meet_their_condition_unless_strict (Command.compile_reachTen .atLeast) rfl before
      (fun _ => .ok 0) 0
  cases moves (by decide +kernel)
  obtain ⟨entry, added, -⟩ := Condition.estimateWait_again "reach"
    (fun limit => Command.isLimit_of_compile (Command.compile_reachTen .atLeast)) rfl known
    (fun _ => rfl)
  have second : dry after = _ := Command.simulate_wait rfl _ 0 after
  refine ⟨after, _, entry, first, known, second, added, ?_⟩
  have free := (again rfl _ _ (.again .begin second added)).2 entry (List.mem_singleton_self entry)
  exact free.mpr (satisfied.mpr fun strict => by cases strict)

/-- A channel that was waited for to be above ten is believed to stand at ten, which is not above
ten, and to wait for it again is not free. -/
theorem strict_wait_is_charged_again :
    let condition : Condition Rat := .reachTen .above
    let before : Estimate Rat := .start ⟨[("a", ⟨some 0, none⟩)], none⟩
    let dry := fun estimate =>
      ((Command.wait "reach" condition).simulate (.quiet fun _ => .ok 0) 0).run.run estimate
    Command.compile (.reachTen .above) = .ok (.wait "reach" condition) ∧
      condition.comparison.isRelative = false ∧
      ∃ after later entry, dry before = (.ok (), after) ∧ after.values.get? "a" = some 10 ∧
        ¬condition.IsSatisfiedBy before 10 10 ∧
        dry after = (.ok (), later) ∧ later.steps = after.steps.push entry ∧
        entry.seconds = 30 ∧ ¬entry.IsFree "reach" := by
  intro condition before dry
  refine ⟨Command.compile_reachTen .above, rfl, _, _, ⟨"reach", _⟩,
    Command.simulate_wait rfl _ 0 before, by decide +kernel,
    by rw [Condition.IsSatisfiedBy]; decide +kernel, Command.simulate_wait rfl _ 0 _, rfl, ?_, ?_⟩
  · decide +kernel
  · rw [SimulationStep.IsFree]
    decide +kernel

end Scan
