import Scan.Scalar
import Scan.Table

/-!
# Profiles

What a dry run knows of the channels: where they stand at the start and how fast they move.
-/

namespace Scan

/-- What is known of one channel. -/
structure ChannelProfile (α : Type) where
  initial : Option α := none
  /-- Units a second; a channel without a rate moves at once. -/
  slewRate : Option α := none
  deriving BEq, Repr

/-- What is known of the channels. -/
structure Profile (α : Type) where
  channels : Table (ChannelProfile α) := []
  /-- The rate of channels that are not listed. -/
  defaultSlewRate : Option α := none
  deriving BEq, Repr

namespace Profile

variable {α : Type}

/-- The rate at which a channel moves: that of its entry, or the default if it has no entry. A
rate that is not positive is none. -/
def slewRate? [Scalar α] (profile : Profile α) (channel : String) : Option α :=
  (match profile.channels.get? channel with
    | some known => known.slewRate
    | none => profile.defaultSlewRate).filter (Scalar.lt Scalar.zero)

/-- The values that the channels start from. -/
def initialValues (profile : Profile α) : Table α :=
  profile.channels.filterMap fun (name, known) => known.initial.map fun value => (name, value)

end Profile

end Scan
