import Scan.Json.Shape
import Scan.Simulation.Profile

/-!
# Profiles as data

A profile is read from an object in which everything may be missing.
-/

namespace Scan

open Json

namespace ChannelProfile

/-- The fields. -/
def record : Record (ChannelProfile Float) :=
  Record.pure ChannelProfile.mk
    |>.defaultField "initial" Decoder.float.optional none
    |>.defaultField "slew_rate" Decoder.float.optional none

/-- Reads what is known of a channel. -/
def decode : Decoder (ChannelProfile Float) := record.decode "struct SimulatedChannel"

end ChannelProfile

namespace Profile

/-- Reads the channels; the last entry of a name counts. -/
def decodeChannels : Decoder (Table (ChannelProfile Float)) := fun source document =>
  (ChannelProfile.decode.map source document).map Table.ofList

/-- The fields. -/
def record : Record (Profile Float) :=
  Record.pure Profile.mk
    |>.defaultField "channels" decodeChannels []
    |>.defaultField "default_slew_rate" Decoder.float.optional none

/-- Reads a profile. -/
def decode : Decoder (Profile Float) := record.decode "struct SimulationProfile"

end Profile

end Scan
