import Mathlib.Algebra.Order.Field.Basic
import Mathlib.Algebra.Order.Field.Rat
import Mathlib.Order.Bounds.Basic
import Scan.Config

/-!
# Motion

Plants in exact time. A channel with a rate moves in a straight line, so the time at which it first
shows a value that is written to it can be reckoned from where it stands: it is the distance divided
by the rate. A channel that is where it was sent stays there.
-/

namespace Scan

/-! ## Exact numbers -/

namespace Scalar

theorem abs_eq (value : Rat) : abs value = |value| := by
  change (if value < 0 then -value else value) = |value|
  split
  · rename_i negative
    exact (abs_of_neg negative).symm
  · rename_i nonneg
    exact (abs_of_nonneg (not_lt.mp nonneg)).symm

theorem sign_of_neg {value : Rat} (negative : value < 0) : sign value = -1 :=
  if_pos negative

theorem sign_of_nonneg {value : Rat} (natural : 0 ≤ value) : sign value = 1 :=
  if_neg (not_lt.mpr natural)

theorem abs_sign (value : Rat) : |sign value| = 1 := by
  rcases lt_or_ge value 0 with negative | natural
  · rw [sign_of_neg negative, abs_neg, abs_one]
  · rw [sign_of_nonneg natural, abs_one]

theorem mul_sign (value : Rat) : value * sign value = |value| := by
  rcases lt_or_ge value 0 with negative | natural
  · rw [sign_of_neg negative, mul_neg_one, abs_of_neg negative]
  · rw [sign_of_nonneg natural, mul_one, abs_of_nonneg natural]

theorem abs_mul_sign (value : Rat) : |value| * sign value = value := by
  change |value| * (if value < 0 then -1 else 1) = value
  split
  · rename_i negative
    rw [abs_of_neg negative, mul_neg_one, neg_neg]
  · rename_i nonneg
    rw [abs_of_nonneg (not_lt.mp nonneg), mul_one]

theorem sign_ne_zero (value : Rat) : sign value ≠ 0 := by
  change (if value < 0 then (-1 : Rat) else 1) ≠ 0
  split
  · exact neg_ne_zero.mpr one_ne_zero
  · exact one_ne_zero

end Scalar

/-- The time from one value to another: none without a rate. -/
def travelSeconds (pace : Option Rat) (origin value : Rat) : Rat :=
  match pace with
  | some rate => |value - origin| / rate
  | none => 0

/-! ## Channels -/

namespace Channel

variable {channel : Channel Rat Rat} {value now later seconds : Rat}

/-- The rate at which a channel moves. A rate that is not positive is none. -/
def pace? (channel : Channel Rat Rat) : Option Rat :=
  channel.slewRate.filter (Scalar.lt Scalar.zero)

/-- Whether a channel has reached its target. -/
def IsAtRest (channel : Channel Rat Rat) (now : Rat) : Prop :=
  channel.valueAt now = channel.target

/-- The time that a channel takes from where it stands to a value. -/
def arrival (channel : Channel Rat Rat) (now value : Rat) : Rat :=
  travelSeconds channel.pace? (channel.valueAt now) value

theorem pace?_eq_some {rate : Rat} :
    channel.pace? = some rate ↔ channel.slewRate = some rate ∧ 0 < rate := by
  rw [pace?, Option.filter_eq_some_iff]
  exact and_congr_right fun _ => decide_eq_true_iff

theorem travelSeconds_nonneg (channel : Channel Rat Rat) (origin value : Rat) :
    0 ≤ travelSeconds channel.pace? origin value := by
  unfold travelSeconds
  split
  · rename_i rate moves
    exact div_nonneg (abs_nonneg _) (pace?_eq_some.mp moves).2.le
  · exact le_rfl

/-- A way is not longer than one by way of another value. -/
theorem travelSeconds_triangle (channel : Channel Rat Rat) (origin between value : Rat) :
    travelSeconds channel.pace? origin value ≤
      travelSeconds channel.pace? between value + travelSeconds channel.pace? origin between := by
  unfold travelSeconds
  split
  · rename_i rate moves
    rw [← add_div]
    exact div_le_div_of_nonneg_right (abs_sub_le _ _ _) (pace?_eq_some.mp moves).2.le
  · exact (add_zero _).ge

/-- The way from a nearer value is not longer. -/
theorem travelSeconds_mono (channel : Channel Rat Rat) {origin other value : Rat}
    (nearer : |value - origin| ≤ |value - other|) :
    travelSeconds channel.pace? origin value ≤ travelSeconds channel.pace? other value := by
  unfold travelSeconds
  split
  · rename_i rate moves
    exact div_le_div_of_nonneg_right nearer (pace?_eq_some.mp moves).2.le
  · exact le_rfl

/-- A channel that does not move at a rate is at its target at once. -/
theorem isAtRest_of_pace_none (jumps : channel.pace? = none) (now : Rat) :
    channel.IsAtRest now := by
  unfold IsAtRest valueAt
  split
  · rfl
  · rename_i rate rated
    have standing : ¬ Scalar.lt Scalar.zero rate = true := by
      intro positive
      exact Option.some_ne_none rate
        ((Option.filter_eq_some_iff.mpr ⟨rated, positive⟩).symm.trans jumps)
    rw [if_neg standing]

/-- A channel that moves is at its target as soon as it has travelled the whole way. -/
theorem isAtRest_iff {rate : Rat} (moves : channel.pace? = some rate) :
    channel.IsAtRest now ↔ |channel.target - channel.origin| ≤ rate * (now - channel.since) := by
  obtain ⟨rated, positive⟩ := pace?_eq_some.mp moves
  have forward : Scalar.lt Scalar.zero rate = true := decide_eq_true positive
  simp only [IsAtRest, valueAt, rated, forward, if_true, Scalar.abs_eq]
  change (if decide (|channel.target - channel.origin| ≤ rate * (now - channel.since)) = true
    then channel.target else channel.origin + rate * (now - channel.since) *
      Scalar.sign (channel.target - channel.origin)) = channel.target ↔ _
  split
  · rename_i travelled
    exact iff_of_true rfl (of_decide_eq_true travelled)
  · rename_i underway
    refine iff_of_false ?_ (of_decide_eq_false (Bool.eq_false_of_not_eq_true underway))
    intro arrived
    -- what was travelled is then the whole way, since both have the same sign
    have whole := (eq_sub_of_add_eq' arrived).trans (Scalar.abs_mul_sign _).symm
    have same := mul_right_cancel₀ (Scalar.sign_ne_zero _) whole
    exact underway (decide_eq_true same.ge)

/-- A channel that is where it was sent stays there. -/
theorem IsAtRest.mono (arrived : channel.IsAtRest now) (later : now ≤ seconds) :
    channel.IsAtRest seconds := by
  cases moves : channel.pace? with
  | none => exact isAtRest_of_pace_none moves seconds
  | some rate =>
      rw [isAtRest_iff moves] at arrived ⊢
      apply arrived.trans
      exact mul_le_mul_of_nonneg_left (sub_le_sub_right later _) (pace?_eq_some.mp moves).2.le

@[simp] theorem target_retarget : (channel.retarget value now).target = value := rfl

@[simp] theorem pace?_retarget : (channel.retarget value now).pace? = channel.pace? := rfl

/-- A channel that is sent to a value is there when the time of its way is over. -/
theorem isAtRest_retarget_iff (nonneg : 0 ≤ seconds) :
    (channel.retarget value now).IsAtRest (now + seconds) ↔
      channel.arrival now value ≤ seconds := by
  have pace : (channel.retarget value now).pace? = channel.pace? := rfl
  cases moves : channel.pace? with
  | none =>
      refine iff_of_true (isAtRest_of_pace_none (pace.trans moves) _) ?_
      rwa [arrival, moves]
  | some rate =>
      rw [isAtRest_iff (pace.trans moves), arrival, moves]
      change |value - channel.valueAt now| ≤ rate * (now + seconds - now) ↔
        |value - channel.valueAt now| / rate ≤ seconds
      rw [add_sub_cancel_left, div_le_iff₀' (pace?_eq_some.mp moves).2]

/-- The first time at which a channel shows a value that is written to it. -/
theorem isLeast_arrival (channel : Channel Rat Rat) (now value : Rat) :
    IsLeast {seconds | 0 ≤ seconds ∧ (channel.retarget value now).valueAt (now + seconds) = value}
      (channel.arrival now value) := by
  have nonneg := channel.travelSeconds_nonneg (channel.valueAt now) value
  constructor
  · exact ⟨nonneg, (isAtRest_retarget_iff nonneg).mpr le_rfl⟩
  · rintro seconds ⟨nonneg, arrived⟩
    exact (isAtRest_retarget_iff nonneg).mp arrived

/-- Where a channel is at rest its way is reckoned from its target. -/
theorem IsAtRest.arrival_eq (rest : channel.IsAtRest now) (value : Rat) :
    channel.arrival now value = travelSeconds channel.pace? channel.target value := by
  rw [arrival, rest]

end Channel

/-! ## Plants -/

namespace Plant

variable {plant : Plant Rat Rat} {name : String} {channel : Channel Rat Rat} {value now : Rat}

theorem read_eq (found : plant.channels.get? name = some channel) :
    plant.read name now = .ok (channel.valueAt now) := by
  rw [read, found]

/-- Any exact number can be written to a channel that there is. -/
theorem write_eq (found : plant.channels.get? name = some channel) :
    plant.write name value now =
      .ok ⟨plant.channels.insert name (channel.retarget value now)⟩ := by
  simp [write, found, Scalar.isFinite, Scalar.exact]

/-- A write that is carried out finds its channel and sends it on its way. -/
theorem write_eq_ok {after : Plant Rat Rat} (written : plant.write name value now = .ok after) :
    ∃ channel, plant.channels.get? name = some channel ∧
      after = ⟨plant.channels.insert name (channel.retarget value now)⟩ := by
  cases found : plant.channels.get? name with
  | none => simp [write, found, Scalar.isFinite, Scalar.exact] at written
  | some channel => exact ⟨channel, rfl, Except.ok.inj (written.symm.trans (write_eq found))⟩

end Plant

/-! ## Configurations -/

theorem Table.get?_map {β γ : Type} (table : Table β) (change : β → γ) (name : String) :
    get? (table.map fun entry => (entry.1, change entry.2)) name =
      (get? table name).map change := by
  induction table with
  | nil => rfl
  | cons entry rest ih =>
      by_cases same : entry.1 = name
      · simp [get?, same]
      · simp [get?, same, ih]

theorem Table.get?_isSome_iff {β : Type} (table : Table β) (name : String) :
    (get? table name).isSome ↔ name ∈ names table := by
  induction table with
  | nil => simp [get?, names]
  | cons entry rest ih =>
      by_cases same : entry.1 = name
      · simp [get?, same, names]
      · simpa [get?, same, names, Ne.symm same] using ih

/-- Channels that are declared one after another are all there, at rest. -/
theorem Plant.get?_foldl_declare (entries : Table (ChannelConfig Rat)) (plant : Plant Rat Rat)
    (distinct : entries.names.Nodup) (now : Rat) (name : String) :
    (entries.foldl (fun plant (name, known) =>
        plant.declare name known.initial known.slewRate now) plant).channels.get? name =
      ((entries.get? name).map fun known =>
        (⟨known.initial, known.initial, known.slewRate, now⟩ : Channel Rat Rat)).or
          (plant.channels.get? name) := by
  induction entries generalizing plant with
  | nil => rfl
  | cons entry rest ih =>
      obtain ⟨fresh, distinct⟩ := List.nodup_cons.mp distinct
      rw [List.foldl_cons, ih _ distinct]
      by_cases same : entry.1 = name
      · have last : Table.get? rest name = none := by
          rw [← Option.not_isSome_iff_eq_none, Table.get?_isSome_iff, ← same]
          exact fresh
        simp [Table.get?, same, last, Plant.declare]
      · simp only [Table.get?, same, if_false, Plant.declare,
          Table.get?_insert_of_ne _ _ (Ne.symm same)]

namespace Config

variable (config : Config Rat)

/-- The plant starts with every channel of the configuration at rest. -/
theorem get?_plant (distinct : config.channels.names.Nodup) (now : Rat) (name : String) :
    (config.plant now).channels.get? name =
      (config.channels.get? name).map fun known =>
        (⟨known.initial, known.initial, known.slewRate, now⟩ : Channel Rat Rat) := by
  rw [plant, Plant.get?_foldl_declare _ _ distinct]
  exact Option.or_none

/-- A dry run starts from where the channels of the configuration are at the start. -/
theorem get?_initialValues (name : String) :
    config.profile.initialValues.get? name =
      (config.channels.get? name).map (·.initial) := by
  have initial : config.profile.initialValues =
      config.channels.map fun entry => (entry.1, entry.2.initial) := by
    rw [Profile.initialValues, profile, List.filterMap_map]
    exact congrFun List.filterMap_eq_map config.channels
  rw [initial, Table.get?_map]

/-- A dry run knows the rates of the channels of the configuration. -/
theorem slewRate?_profile {name : String} {known : ChannelConfig Rat}
    (found : config.channels.get? name = some known) :
    config.profile.slewRate? name = known.slewRate.filter (Scalar.lt Scalar.zero) := by
  have entry : config.profile.channels.get? name =
      some ⟨some known.initial, known.slewRate⟩ := by
    rw [profile, Table.get?_map config.channels (fun known =>
      (⟨some known.initial, known.slewRate⟩ : ChannelProfile Rat)), found]
    rfl
  rw [Profile.slewRate?, entry]

end Config

end Scan
