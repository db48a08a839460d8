import Mathlib.Algebra.Order.Group.MinMax
import Mathlib.Data.List.Induction
import Mathlib.Tactic.Linarith
import Scan.Proofs.Motion

/-!
# Ramps

A plant over time, whatever is asked of it. What a channel shows follows from what it was told:
how it was declared last, and the values that were written to it since. A channel without a rate
shows the last of these values. One with a rate moves between them without a jump and no faster than
its rate, and it shows a value that is written to it just from the time on at which its way is over.
-/

namespace Scan

/-! ## Orders -/

namespace Plant

/-- Something that a plant can be asked to do. -/
inductive Order (α : Type) where
  | declare (name : String) (initial : α) (slewRate : Option α)
  | write (name : String) (value : α)

namespace Order

variable {α : Type}

/-- The channel that an order is about. -/
def name : Order α → String
  | .declare name _ _ | .write name _ => name

/-- Whether an order declares a channel of a given name. -/
def Declares (order : Order α) (name : String) : Prop :=
  ∃ initial slewRate, order = .declare name initial slewRate

end Order

section Service

variable {α τ : Type} [Scalar α] [Clock τ α]

/-- The plant behind an order. -/
def heed (plant : Plant α τ) (now : τ) : Order α → Plant α τ
  | .declare name initial slewRate => plant.declare name initial slewRate now
  | .write name value =>
      match plant.write name value now with
      | .ok written => written
      | .error _ => plant

/-- From a plant at one time to the plant at another: time goes on, and orders are heeded. -/
inductive Serves [LE τ] (plant : Plant α τ) (start : τ) :
    List (Order α) → Plant α τ → τ → Prop where
  | begin : Serves plant start [] plant start
  | wait {orders : List (Order α)} {after : Plant α τ} {now later : τ}
      (served : Serves plant start orders after now) (goesOn : now ≤ later) :
      Serves plant start orders after later
  | heed {orders : List (Order α)} {after : Plant α τ} {now : τ}
      (served : Serves plant start orders after now) (order : Order α) :
      Serves plant start (orders ++ [order]) (after.heed now order) now

end Service

end Plant

/-! ## What a channel was told -/

/-- What a channel was told: how it was declared last, and the values that were written to it
since, oldest first. -/
structure Brief (α : Type) where
  slewRate : Option α
  initial : α
  written : List α := []

namespace Brief

variable {α : Type}

/-- All values that the channel was told. -/
def values (brief : Brief α) : List α :=
  brief.initial :: brief.written

/-- The last value that the channel was told. -/
def last (brief : Brief α) : α :=
  brief.values.getLast (List.cons_ne_nil _ _)

/-- The rate that the channel was given. A rate that is not positive is none. -/
def pace? [Scalar α] (brief : Brief α) : Option α :=
  brief.slewRate.filter (Scalar.lt Scalar.zero)

/-- The brief with one more value. -/
def tell (brief : Brief α) (value : α) : Brief α :=
  { brief with written := brief.written ++ [value] }

/-- Whether a value lies between values that the channel was told. -/
def Spans (brief : Brief Rat) (value : Rat) : Prop :=
  ∃ low ∈ brief.values, ∃ high ∈ brief.values, low ≤ value ∧ value ≤ high

@[simp] theorem values_tell (brief : Brief α) (value : α) :
    (brief.tell value).values = brief.values ++ [value] := rfl

@[simp] theorem last_tell (brief : Brief α) (value : α) : (brief.tell value).last = value := by
  simp only [last, values_tell, List.getLast_concat]

theorem last_mem (brief : Brief α) : brief.last ∈ brief.values :=
  List.getLast_mem _

theorem spans_of_mem {brief : Brief Rat} {value : Rat} (member : value ∈ brief.values) :
    brief.Spans value :=
  ⟨value, member, value, member, le_rfl, le_rfl⟩

theorem Spans.tell {brief : Brief Rat} {value : Rat} (spans : brief.Spans value) (next : Rat) :
    (brief.tell next).Spans value := by
  obtain ⟨low, lowMember, high, highMember, above, below⟩ := spans
  rw [Spans, values_tell]
  exact ⟨low, List.mem_append_left _ lowMember, high, List.mem_append_left _ highMember, above,
    below⟩

/-- What lies between two values of the span does so as well. -/
theorem Spans.between {brief : Brief Rat} {first second value : Rat} (left : brief.Spans first)
    (right : brief.Spans second) (above : min first second ≤ value)
    (below : value ≤ max first second) : brief.Spans value := by
  obtain ⟨lowFirst, lowFirstMember, highFirst, highFirstMember, aboveFirst, belowFirst⟩ := left
  obtain ⟨lowSecond, lowSecondMember, highSecond, highSecondMember, aboveSecond, belowSecond⟩ :=
    right
  have low : ∃ low ∈ brief.values, low ≤ value := by
    rcases min_le_iff.mp above with above | above
    · exact ⟨lowFirst, lowFirstMember, aboveFirst.trans above⟩
    · exact ⟨lowSecond, lowSecondMember, aboveSecond.trans above⟩
  have high : ∃ high ∈ brief.values, value ≤ high := by
    rcases le_max_iff.mp below with below | below
    · exact ⟨highFirst, highFirstMember, below.trans belowFirst⟩
    · exact ⟨highSecond, highSecondMember, below.trans belowSecond⟩
  obtain ⟨low, lowMember, above⟩ := low
  obtain ⟨high, highMember, below⟩ := high
  exact ⟨low, lowMember, high, highMember, above, below⟩

end Brief

namespace Plant

section Briefs

variable {α : Type} [Scalar α]

/-- What one order adds to what the channel of a name was told. A write tells it nothing if it was
not declared, or if the value is not finite. -/
def Order.brief? (name : String) (brief : Option (Brief α)) : Order α → Option (Brief α)
  | .declare other initial slewRate => if other = name then some ⟨slewRate, initial, []⟩ else brief
  | .write other value =>
      if other = name ∧ Scalar.isFinite value = true then brief.map (·.tell value) else brief

/-- What the channel of a name was told by orders, if it was declared. -/
def brief? (name : String) (orders : List (Order α)) : Option (Brief α) :=
  orders.foldl (Order.brief? name) none

@[simp] theorem brief?_concat (name : String) (orders : List (Order α)) (order : Order α) :
    brief? name (orders ++ [order]) = order.brief? name (brief? name orders) := by
  rw [brief?, List.foldl_append]
  rfl

/-- Just the channels that were declared were told something. -/
theorem brief?_isSome_iff {name : String} {orders : List (Order α)} :
    (brief? name orders).isSome ↔ ∃ order ∈ orders, order.Declares name := by
  induction orders using List.reverseRecOn with
  | nil => simp [brief?]
  | append_singleton orders order ih =>
      have split : (∃ other ∈ orders ++ [order], other.Declares name) ↔
          (brief? name orders).isSome ∨ order.Declares name := by
        simp [ih, or_and_right, exists_or]
      rw [brief?_concat, split]
      cases order with
      | declare other initial slewRate =>
          by_cases same : other = name <;> simp [Order.brief?, Order.Declares, same]
      | write other value =>
          by_cases told : other = name ∧ Scalar.isFinite value = true <;>
            simp [Order.brief?, Order.Declares, told]

end Briefs

end Plant

/-! ## Exact motion -/

namespace Channel

variable {channel : Channel Rat Rat} {value now later rate : Rat}

theorem valueAt_of_pace_none (jumps : channel.pace? = none) (now : Rat) :
    channel.valueAt now = channel.target :=
  isAtRest_of_pace_none jumps now

/-- A channel that moves has gone the way for which it had the time, and no farther than its
target. -/
theorem valueAt_eq (moves : channel.pace? = some rate) (now : Rat) :
    channel.valueAt now = channel.origin +
      min (rate * (now - channel.since)) |channel.target - channel.origin| *
        Scalar.sign (channel.target - channel.origin) := by
  obtain ⟨rated, positive⟩ := pace?_eq_some.mp moves
  have forward : Scalar.lt Scalar.zero rate = true := decide_eq_true positive
  by_cases arrived : channel.IsAtRest now
  · have whole := (isAtRest_iff moves).mp arrived
    rw [min_eq_right whole, Scalar.abs_mul_sign, add_sub_cancel]
    exact arrived
  · have underway := (isAtRest_iff moves).not.mp arrived
    rw [min_eq_left (le_of_not_ge underway)]
    simp only [valueAt, rated, forward, if_true, Scalar.abs_eq]
    exact if_neg fun whole => underway (of_decide_eq_true whole)

/-- A channel starts from where it was when it was sent off. -/
theorem valueAt_since (moves : channel.pace? = some rate) :
    channel.valueAt channel.since = channel.origin := by
  rw [valueAt_eq moves, sub_self, mul_zero, min_eq_left (abs_nonneg _), zero_mul, add_zero]

/-- A channel that moves goes no faster than its rate. -/
theorem abs_valueAt_sub_le (moves : channel.pace? = some rate) (goesOn : now ≤ later) :
    |channel.valueAt later - channel.valueAt now| ≤ rate * (later - now) := by
  have positive := (pace?_eq_some.mp moves).2
  rw [valueAt_eq moves, valueAt_eq moves, add_sub_add_left_eq_sub, ← sub_mul, abs_mul,
    Scalar.abs_sign, mul_one]
  refine (abs_min_sub_min_le_max _ _ _ _).trans ?_
  rw [sub_self, abs_zero, ← mul_sub, sub_sub_sub_cancel_right,
    abs_of_nonneg (mul_nonneg positive.le (sub_nonneg.mpr goesOn)), max_eq_left]
  exact mul_nonneg positive.le (sub_nonneg.mpr goesOn)

/-- A channel is somewhere on the way to its target. -/
theorem valueAt_mem (begun : channel.since ≤ now) :
    min channel.origin channel.target ≤ channel.valueAt now ∧
      channel.valueAt now ≤ max channel.origin channel.target := by
  cases moves : channel.pace? with
  | none =>
      rw [valueAt_of_pace_none moves]
      exact ⟨min_le_right _ _, le_max_right _ _⟩
  | some rate =>
      have positive := (pace?_eq_some.mp moves).2
      have forward := le_min (mul_nonneg positive.le (sub_nonneg.mpr begun))
        (abs_nonneg (channel.target - channel.origin))
      have within := min_le_right (rate * (now - channel.since)) |channel.target - channel.origin|
      rw [valueAt_eq moves]
      generalize min (rate * (now - channel.since)) |channel.target - channel.origin| = way at *
      rcases lt_or_ge (channel.target - channel.origin) 0 with down | up
      · rw [abs_of_neg down] at within
        rw [Scalar.sign_of_neg down, min_eq_right (sub_neg.mp down).le,
          max_eq_left (sub_neg.mp down).le]
        constructor <;> linarith
      · rw [abs_of_nonneg up] at within
        rw [Scalar.sign_of_nonneg up, min_eq_left (sub_nonneg.mp up),
          max_eq_right (sub_nonneg.mp up)]
        constructor <;> linarith

/-- A channel that is sent to another value does not jump. -/
theorem valueAt_retarget (moves : channel.pace? = some rate) :
    (channel.retarget value now).valueAt now = channel.valueAt now := by
  have sent : (channel.retarget value now).pace? = some rate := moves
  exact valueAt_since sent

end Channel

/-! ## One order -/

namespace Plant

section Orders

variable {α τ : Type} [Scalar α] [Clock τ α]
variable {plant : Plant α τ} {name : String} {value : α} {now : τ} {order : Order α}

/-- What one order makes of the channel of a name. -/
def Order.channel? (name : String) (now : τ) (channel : Option (Channel α τ)) :
    Order α → Option (Channel α τ)
  | .declare other initial slewRate =>
      if other = name then some ⟨initial, initial, slewRate, now⟩ else channel
  | .write other value =>
      if other = name ∧ Scalar.isFinite value = true then channel.map (·.retarget value now)
      else channel

/-- A write is refused if the value is not finite or there is no such channel. -/
theorem exists_write_eq_error_iff : (∃ error, plant.write name value now = .error error) ↔
    Scalar.isFinite value = false ∨ plant.channels.get? name = none := by
  rw [write]
  cases Scalar.isFinite value <;> cases plant.channels.get? name <;> simp

/-- An order does to each channel what it says of it, and nothing else. -/
theorem get?_heed (plant : Plant α τ) (now : τ) (order : Order α) (name : String) :
    (plant.heed now order).channels.get? name =
      order.channel? name now (plant.channels.get? name) := by
  cases order with
  | declare other initial slewRate =>
      simp only [heed, declare, Order.channel?, Table.get?_insert, eq_comm]
  | write other value =>
      simp only [heed, write, Order.channel?]
      cases Scalar.isFinite value with
      | false => simp
      | true =>
          by_cases same : other = name
          · subst same
            cases found : plant.channels.get? other <;> simp [found]
          · cases plant.channels.get? other <;>
              simp [same, Table.get?_insert_of_ne _ _ (Ne.symm same)]

/-- An order leaves the channels alone that it is not about. -/
theorem Order.channel?_of_ne (apart : order.name ≠ name) (channel : Option (Channel α τ)) :
    order.channel? name now channel = channel := by
  cases order with
  | declare => exact if_neg apart
  | write => exact if_neg fun told => apart told.1

theorem read_eq_of_get?_eq {later : Plant α τ}
    (same : later.channels.get? name = plant.channels.get? name) (time : τ) :
    later.read name time = plant.read name time := by
  rw [read, read, same]

/-- There are the channels that were told something. -/
theorem Serves.isSome_eq [LE τ] {orders : List (Order α)} {start : τ}
    (served : Serves {} start orders plant now) (name : String) :
    (plant.channels.get? name).isSome = (brief? name orders).isSome := by
  induction served with
  | begin => rfl
  | wait _ _ ih => exact ih
  | heed _ order ih =>
      rw [get?_heed, brief?_concat]
      cases order <;> simp only [Order.channel?, Order.brief?] <;> split <;> simp [ih]

end Orders

end Plant

/-! ## Many orders -/

/-- Whether a channel is on the way on which it was told to go. -/
structure Channel.Obeys (now : Rat) (channel : Channel Rat Rat) (brief : Brief Rat) : Prop where
  slewRate : channel.slewRate = brief.slewRate
  target : channel.target = brief.last
  /-- The way begins somewhere between the values that the channel was told. -/
  origin : brief.Spans channel.origin
  begun : channel.since ≤ now

namespace Channel.Obeys

variable {channel : Channel Rat Rat} {brief : Brief Rat} {now later : Rat}

theorem pace?_eq (obeys : channel.Obeys now brief) : channel.pace? = brief.pace? := by
  rw [Channel.pace?, Brief.pace?, obeys.slewRate]

theorem spans (obeys : channel.Obeys now brief) : brief.Spans (channel.valueAt now) := by
  obtain ⟨above, below⟩ := valueAt_mem obeys.begun
  rw [obeys.target] at above below
  exact obeys.origin.between (Brief.spans_of_mem brief.last_mem) above below

theorem mono (obeys : channel.Obeys now brief) (goesOn : now ≤ later) :
    channel.Obeys later brief :=
  { obeys with begun := obeys.begun.trans goesOn }

theorem declare (initial : Rat) (slewRate : Option Rat) (now : Rat) :
    Channel.Obeys now ⟨initial, initial, slewRate, now⟩ ⟨slewRate, initial, []⟩ where
  slewRate := rfl
  target := rfl
  origin := Brief.spans_of_mem (List.mem_singleton_self initial)
  begun := le_rfl

theorem retarget (obeys : channel.Obeys now brief) (value : Rat) :
    (channel.retarget value now).Obeys now (brief.tell value) where
  slewRate := obeys.slewRate
  target := (brief.last_tell value).symm
  origin := obeys.spans.tell value
  begun := le_rfl

end Channel.Obeys

namespace Plant

section Steps

variable {channel? : Option (Channel Rat Rat)} {brief? : Option (Brief Rat)} {now later : Rat}

theorem rel_obeys_mono (obeys : Option.Rel (Channel.Obeys now) channel? brief?)
    (goesOn : now ≤ later) : Option.Rel (Channel.Obeys later) channel? brief? := by
  cases obeys with
  | none => exact .none
  | some obeys => exact .some (obeys.mono goesOn)

/-- What an order makes of a channel is what it tells it. -/
theorem Order.rel_obeys (obeys : Option.Rel (Channel.Obeys now) channel? brief?)
    (order : Order Rat) (name : String) :
    Option.Rel (Channel.Obeys now) (order.channel? name now channel?)
      (order.brief? name brief?) := by
  cases order with
  | declare other initial slewRate =>
      simp only [Order.channel?, Order.brief?]
      split
      · exact .some (.declare initial slewRate now)
      · exact obeys
  | write other value =>
      simp only [Order.channel?, Order.brief?]
      split
      · cases obeys with
        | none => exact .none
        | some obeys => exact .some (obeys.retarget value)
      · exact obeys

end Steps

variable {plant after : Plant Rat Rat} {orders : List (Order Rat)}
variable {start now rate : Rat} {name : String} {channel : Channel Rat Rat}

/-- Each channel of a plant is on its way as it was told to be. -/
theorem Serves.obeys (served : Serves {} start orders plant now) (name : String) :
    Option.Rel (Channel.Obeys now) (plant.channels.get? name) (brief? name orders) := by
  induction served with
  | begin => exact .none
  | wait _ goesOn ih => exact rel_obeys_mono ih goesOn
  | heed _ order ih =>
      rw [get?_heed, brief?_concat]
      exact order.rel_obeys ih name

/-- Until it is declared anew, a channel with a rate goes no faster, whatever is written to it. -/
theorem Serves.exists_near (served : plant.Serves start orders after now)
    (kept : ∀ order ∈ orders, ¬order.Declares name)
    (found : plant.channels.get? name = some channel) (moves : channel.pace? = some rate) :
    ∃ other, after.channels.get? name = some other ∧ other.pace? = some rate ∧
      |other.valueAt now - channel.valueAt start| ≤ rate * (now - start) := by
  induction served with
  | begin => exact ⟨channel, found, moves, by simp⟩
  | @wait _ _ now later _ goesOn ih =>
      obtain ⟨other, found, moves, near⟩ := ih kept
      refine ⟨other, found, moves, ?_⟩
      calc |other.valueAt later - channel.valueAt start|
          ≤ |other.valueAt later - other.valueAt now| +
              |other.valueAt now - channel.valueAt start| := abs_sub_le _ _ _
        _ ≤ rate * (later - now) + rate * (now - start) :=
              add_le_add (other.abs_valueAt_sub_le moves goesOn) near
        _ = rate * (later - start) := by rw [← mul_add, sub_add_sub_cancel]
  | @heed orders _ now _ order ih =>
      obtain ⟨other, found, moves, near⟩ :=
        ih fun order member => kept order (List.mem_append_left _ member)
      rw [get?_heed, found]
      cases order with
      | declare another initial slewRate =>
          refine ⟨other, if_neg ?_, moves, near⟩
          rintro rfl
          exact kept _ (List.mem_append_right _ (List.mem_singleton_self _))
            ⟨initial, slewRate, rfl⟩
      | write another value =>
          simp only [Order.channel?]
          split
          · exact ⟨other.retarget value now, rfl, moves,
              (other.valueAt_retarget moves).symm ▸ near⟩
          · exact ⟨other, rfl, moves, near⟩

/-- A channel that no order is about stays as it is. -/
theorem Serves.get?_eq (served : plant.Serves start orders after now)
    (apart : ∀ order ∈ orders, order.name ≠ name) :
    after.channels.get? name = plant.channels.get? name := by
  induction served with
  | begin => rfl
  | wait _ _ ih => exact ih apart
  | heed _ order ih =>
      rw [get?_heed, Order.channel?_of_ne (apart order (by simp)),
        ih fun order member => apart order (List.mem_append_left _ member)]

/-! ## What a channel shows -/

/-- What a write does to a plant that has heeded orders. -/
structure WritesApart {α τ : Type} [Scalar α] [Clock τ α] (plant : Plant α τ)
    (orders : List (Order α)) (now : τ) (name : String) (value : α) : Prop where
  /-- The write fails just if the value is not finite or the channel was not declared. -/
  refused : (∃ error, plant.write name value now = .error error) ↔
    Scalar.isFinite value = false ∨ ¬∃ order ∈ orders, order.Declares name
  /-- Then it changes nothing. -/
  unchanged : (∃ error, plant.write name value now = .error error) →
    plant.heed now (.write name value) = plant
  /-- It never changes another channel. -/
  apart : ∀ other time, other ≠ name →
    (plant.heed now (.write name value)).read other time = plant.read other time

theorem Serves.writesApart {α τ : Type} [Scalar α] [Clock τ α] [LE τ] {plant : Plant α τ}
    {orders : List (Order α)} {start now : τ} (served : Serves {} start orders plant now)
    (name : String) (value : α) : plant.WritesApart orders now name value where
  refused := by
    rw [exists_write_eq_error_iff, ← brief?_isSome_iff, ← served.isSome_eq name,
      Option.not_isSome_iff_eq_none]
  unchanged := by
    rintro ⟨error, refused⟩
    rw [Plant.heed, refused]
  apart := by
    intro other time different
    apply read_eq_of_get?_eq
    rw [get?_heed, Order.channel?_of_ne fun same => different same.symm]

/-- What a channel shows at a time that was told something, and what it shows from then on. -/
structure Shows (plant : Plant Rat Rat) (now : Rat) (name : String) (brief : Brief Rat)
    (value : Rat) : Prop where
  reads : plant.read name now = .ok value
  /-- The value lies between those that the channel was told. -/
  spans : brief.Spans value
  /-- Without a rate it is the last of these. -/
  settled : brief.pace? = none → value = brief.last
  /-- With a rate the channel does not jump when it is written to. -/
  continuous : ∀ rate target, brief.pace? = some rate →
    (plant.heed now (.write name target)).read name now = .ok value
  /-- Until it is declared anew it goes no faster than its rate, whatever is written to it. -/
  bounded : ∀ {rate orders after time}, brief.pace? = some rate →
    plant.Serves now orders after time → (∀ order ∈ orders, ¬order.Declares name) →
    ∃ shown, after.read name time = .ok shown ∧ |shown - value| ≤ rate * (time - now)
  /-- It shows a value that is written to it just if it had the time for its way. -/
  arrives : ∀ {rate target orders after time}, brief.pace? = some rate →
    (plant.heed now (.write name target)).Serves now orders after time →
    (∀ order ∈ orders, order.name ≠ name) →
    (after.read name time = .ok target ↔ |target - value| ≤ rate * (time - now))

theorem heed_write (found : plant.channels.get? name = some channel) (now target : Rat) :
    (plant.heed now (.write name target)).channels.get? name =
      some (channel.retarget target now) := by
  simp [get?_heed, found, Order.channel?, Scalar.isFinite, Scalar.exact]

theorem shows_of_obeys {brief : Brief Rat} (found : plant.channels.get? name = some channel)
    (obeys : channel.Obeys now brief) : plant.Shows now name brief (channel.valueAt now) where
  reads := read_eq found
  spans := obeys.spans
  settled := by
    intro jumps
    rw [← obeys.pace?_eq] at jumps
    rw [channel.valueAt_of_pace_none jumps, obeys.target]
  continuous := by
    intro rate target moves
    rw [← obeys.pace?_eq] at moves
    rw [read_eq (heed_write found now target), channel.valueAt_retarget moves]
  bounded := by
    intro rate orders after time moves served kept
    rw [← obeys.pace?_eq] at moves
    obtain ⟨other, found, -, near⟩ := served.exists_near kept found moves
    exact ⟨other.valueAt time, read_eq found, near⟩
  arrives := by
    intro rate target orders after time moves served apart
    rw [← obeys.pace?_eq] at moves
    have kept := (served.get?_eq apart).trans (heed_write found now target)
    rw [read_eq kept, Except.ok.injEq]
    have sent : (channel.retarget target now).pace? = some rate := moves
    exact Channel.isAtRest_iff sent

end Plant

/-- What the channels of a plant show, whatever the plant was asked in whatever order, as long as
time does not go back. A write that fails changes nothing, and one that succeeds changes its own
channel only. A channel that was not declared is unknown. One that was shows a value between those
that it was told: without a rate the last of them; with a rate it does not jump, it goes no faster
than the rate until it is declared anew, and it shows a value that is written to it just from the
time on at which its way is over. The first part holds of numbers and clocks of every kind. -/
theorem channels_ramp_as_told :
    (∀ {α τ : Type} [Scalar α] [Clock τ α] [LE τ] {orders : List (Plant.Order α)} {start now : τ}
        {plant : Plant α τ}, Plant.Serves {} start orders plant now → ∀ name value,
      plant.WritesApart orders now name value) ∧
    ∀ {orders : List (Plant.Order Rat)} {start now : Rat} {plant : Plant Rat Rat},
      Plant.Serves {} start orders plant now → ∀ name,
        (Plant.brief? name orders = none → plant.read name now = .error (.unknownChannel name)) ∧
        ∀ brief, Plant.brief? name orders = some brief →
          ∃ value, plant.Shows now name brief value := by
  refine ⟨fun served name value => served.writesApart name value, fun {orders} start now plant
    served name => ?_⟩
  have obeys := served.obeys name
  generalize found : plant.channels.get? name = channel? at obeys
  generalize told : Plant.brief? name orders = brief? at obeys
  cases obeys with
  | none =>
      refine ⟨fun _ => ?_, fun _ same => by cases same⟩
      rw [Plant.read, found]
  | some obeys =>
      refine ⟨fun same => (by cases same), fun brief same => ?_⟩
      cases same
      exact ⟨_, Plant.shows_of_obeys found obeys⟩

/-- A channel that moves by two units a second is sent up to ten, and back after one second. There
it shows two, and it is back after one second more. -/
theorem ramp_turns_back_as_told :
    ∃ plant : Plant Rat Rat,
      Plant.Serves {} (0 : Rat) [.declare "a" 0 (some 2), .write "a" 10] plant 1 ∧
        plant.read "a" (1 : Rat) = .ok 2 ∧
        ∀ {after : Plant Rat Rat} {time : Rat},
          (plant.heed (1 : Rat) (.write "a" 0)).Serves 1 [] after time →
            (after.read "a" time = .ok 0 ↔ 2 ≤ 2 * (time - 1)) := by
  have begun : Plant.Serves ({} : Plant Rat Rat) (0 : Rat) [] {} 0 := .begin
  have served := ((begun.heed (.declare "a" 0 (some 2))).heed (.write "a" 10)).wait zero_le_one
  obtain ⟨value, shows⟩ := (channels_ramp_as_told.2 served "a").2 ⟨some 2, 0, [10]⟩ rfl
  have midway : value = 2 := Except.ok.inj (shows.reads.symm.trans (by decide +kernel))
  subst midway
  refine ⟨_, served, shows.reads, fun goesOn => ?_⟩
  have moves : (⟨some 2, 0, [10]⟩ : Brief Rat).pace? = some 2 := rfl
  have arrives := shows.arrives moves goesOn (List.forall_mem_nil _)
  rwa [zero_sub, abs_neg, abs_of_pos two_pos] at arrives

end Scan
