import Scan.Config.Level
import Scan.Duration
import Scan.Json.Value
import Scan.Plant
import Scan.Simulation.Profile

/-!
# Configurations

What a program around the engine has to know: how often a waiting step looks up, which channels the
simulated plant has, and what is logged. A dry run is told the same of the channels as the plant.
-/

namespace Scan

/-- One channel of the plant. -/
structure ChannelConfig (α : Type) where
  initial : α
  /-- Units a second; a channel without a rate moves at once. -/
  slewRate : Option α := none
  deriving BEq, Repr

/-- Which places in the program the messages name. -/
structure LogLocation where
  showFile : Bool
  showLine : Bool
  deriving BEq, DecidableEq, Repr

/-- How messages are written. -/
structure LogFormat where
  showTime : Bool
  /-- One object a line instead of a text for people. -/
  json : Bool := false
  location : LogLocation
  deriving BEq, DecidableEq, Repr

/-- What is logged, and how. -/
structure Logging where
  verbose : Bool
  format : LogFormat
  levels : Levels
  deriving BEq, DecidableEq, Repr

/-- The level that is logged. -/
def Logging.level (logging : Logging) : Level :=
  logging.levels.effective logging.verbose

/-- A configuration. -/
structure Config (α : Type) where
  pollIntervalMs : UInt64
  /-- The rate of channels that are not listed, in dry runs. -/
  defaultSlewRate : Option α := none
  channels : Table (ChannelConfig α) := []
  logging : Logging
  deriving BEq, Repr

namespace Config

variable {α τ : Type}

/-- The longest time for which a waiting step does not look up, at least a millisecond. -/
def pollInterval (config : Config α) : Duration :=
  Duration.ofMilliseconds (max 1 config.pollIntervalMs.toNat)

/-- What a dry run knows of the channels. -/
def profile (config : Config α) : Profile α where
  channels := config.channels.map fun (name, channel) =>
    (name, { initial := some channel.initial, slewRate := channel.slewRate })
  defaultSlewRate := config.defaultSlewRate

/-- The plant with every channel at rest. -/
def plant [Scalar α] [Clock τ α] (config : Config α) (now : τ) : Plant α τ :=
  config.channels.foldl
    (fun plant (name, channel) => plant.declare name channel.initial channel.slewRate now) {}

/-- The written form. -/
def toValue (config : Config Float) : Json.Value :=
  let flag (value : Bool) : Json.Value := .bool value
  let rate (value : Option Float) : Json.Value := (value.map Json.Value.float).getD .null
  let channel (known : ChannelConfig Float) : Json.Value :=
    .object [("initial", .float known.initial), ("slew_rate", rate known.slewRate)]
  let format := config.logging.format
  let levels := config.logging.levels
  .object [
    ("engine", .object [("poll_interval_ms", .word config.pollIntervalMs)]),
    ("simulation", .object [("default_slew_rate", rate config.defaultSlewRate)]),
    ("process", .object [("channels",
      .object (config.channels.map fun (name, known) => (name, channel known)))]),
    ("logging", .object [
      ("verbose", flag config.logging.verbose),
      ("format", .object [
        ("show_time", flag format.showTime), ("json", flag format.json),
        ("location", .object [("show_file", flag format.location.showFile),
          ("show_line", flag format.location.showLine)])]),
      ("levels", .object [("debug", flag levels.debug), ("info", flag levels.info),
        ("warning", flag levels.warning), ("error", flag levels.error)])])]

end Config

end Scan
