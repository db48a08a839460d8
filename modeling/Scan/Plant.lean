import Scan.Error
import Scan.Table

/-!
# Simulated plants

A plant of named channels that hold numbers. A channel with a rate does not jump to a value that
is written: it moves towards it in a straight line, from where it stands at that time. A plant that
runs tells the time in instants. What is said of it in exact time is said of the same definitions
with another clock.
-/

namespace Scan

/-- A way to tell the time: points of time, and the number of seconds from one to a later one. -/
class Clock (τ α : Type) where
  secondsBetween : τ → τ → α

instance {α : Type} [Scalar α] : Clock Instant α where
  secondsBetween start stop := (Duration.between start stop).seconds

/-- Exact time is counted in seconds. -/
instance : Clock Rat Rat where
  secondsBetween start stop := stop - start

/-- One channel on its way. -/
structure Channel (α : Type) (τ : Type := Instant) where
  /-- The value at the time `since`. -/
  origin : α
  target : α
  /-- Units a second; without a rate the channel is at its target at once. -/
  slewRate : Option α
  since : τ
  deriving BEq, Repr

namespace Channel

variable {α τ : Type} [Scalar α] [Clock τ α]

/-- Where the channel stands. -/
def valueAt (channel : Channel α τ) (now : τ) : α :=
  match channel.slewRate with
  | none => channel.target
  | some rate =>
      if Scalar.lt Scalar.zero rate then
        let travelled := rate * Clock.secondsBetween channel.since now
        let distance := channel.target - channel.origin
        if Scalar.le (Scalar.abs distance) travelled then channel.target
        else channel.origin + travelled * Scalar.sign distance
      else channel.target

/-- The channel on its way to another value. -/
def retarget (channel : Channel α τ) (value : α) (now : τ) : Channel α τ :=
  { channel with origin := channel.valueAt now, target := value, since := now }

end Channel

/-- Channels by name. -/
structure Plant (α : Type) (τ : Type := Instant) where
  channels : Table (Channel α τ) := []
  deriving BEq, Repr

namespace Plant

variable {α τ : Type} [Scalar α] [Clock τ α]

/-- Adds a channel at rest, or puts it in the place of one of that name. -/
def declare (plant : Plant α τ) (name : String) (initial : α) (slewRate : Option α)
    (now : τ) : Plant α τ :=
  { channels := plant.channels.insert name ⟨initial, initial, slewRate, now⟩ }

/-- The value of a channel. -/
def read (plant : Plant α τ) (name : String) (now : τ) : Except IoError α :=
  match plant.channels.get? name with
  | some channel => .ok (channel.valueAt now)
  | none => .error (.unknownChannel name)

/-- The plant after a write; only finite values can be written. -/
def write (plant : Plant α τ) (name : String) (value : α) (now : τ) :
    Except IoError (Plant α τ) :=
  if !Scalar.isFinite value then
    .error (.typeMismatch (name ++ " cannot hold non-finite value " ++ Scalar.text value))
  else
    match plant.channels.get? name with
    | some channel => .ok { channels := plant.channels.insert name (channel.retarget value now) }
    | none => .error (.unknownChannel name)

/-- The names of the channels in order. -/
def list (plant : Plant α τ) : List String :=
  plant.channels.names

end Plant

end Scan
