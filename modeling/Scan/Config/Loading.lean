import Scan.Config
import Scan.Config.Layer

/-!
# Loading a configuration

A configuration has three layers: the main file, which has to be there, a local file beside it, and
environment variables. Together they have to name every setting that has no value of its own.
Settings are taken in any form that can be understood as what they are for.
-/

namespace Scan

/-- Why a configuration cannot be loaded. -/
inductive ConfigError where
  /-- There is no main file. -/
  | missingFile
  /-- A file is of no known format, or not a table in its format. -/
  | unreadableFile
  /-- A setting is missing or not what it has to be. -/
  | unusable
  deriving BEq, DecidableEq, Repr

/-- The text of a failure to load. -/
def ConfigError.message : ConfigError → String
  | .missingFile => "configuration file not found"
  | .unreadableFile => "configuration file cannot be read"
  | .unusable => "a setting is missing or has a wrong value"

namespace Setting

/-- Words for yes. -/
def yesWords : List String := ["true", "on", "yes"]

/-- Words for no. -/
def noWords : List String := ["false", "off", "no"]

/-- A text in small letters. -/
def lower (text : String) : String :=
  String.ofList (text.toList.map Char.toLower)

/-- The truth value that a setting is understood as. -/
def asTruth? : Setting → Option Bool
  | .truth value => some value
  | .integer value => some (value != 0)
  | .real value => some (value != 0)
  | .text written =>
      let word := lower written
      if word == "1" || yesWords.contains word then some true
      else if word == "0" || noWords.contains word then some false
      else none
  | .nil | .list _ | .table _ => none

/-- The count that a setting is understood as: a number is rounded and kept in the range of a
word, except that an integer below zero is none. -/
def asCount? : Setting → Option UInt64
  | .truth value => some (if value then 1 else 0)
  | .integer value => if 0 ≤ value then some (UInt64.ofNat value.toNat) else none
  | .real value => some value.round.toUInt64
  | .text written =>
      let word := lower written
      if yesWords.contains word then some 1
      else if noWords.contains word then some 0
      else
        let digits := match written.toList with
          | '+' :: rest => rest
          | chars => chars
        if digits.isEmpty || !digits.all Char.isDigit then none
        else
          let value := Decimal.digitsValue 0 digits
          if value < Nat.pow 2 64 then some (UInt64.ofNat value) else none
  | .nil | .list _ | .table _ => none

/-- The number that a setting is understood as. -/
def asNumber? : Setting → Option Float
  | .truth value => some (if value then 1 else 0)
  | .integer value => some (Int64.ofInt value).toFloat
  | .real value => some value
  | .text written =>
      let word := lower written
      if yesWords.contains word then some 1
      else if noWords.contains word then some 0
      else Decimal.readLiteral written
  | .nil | .list _ | .table _ => none

/-- The number that a setting is understood as, where nil stands for none. -/
def asOptionalNumber? : Setting → Option (Option Float)
  | .nil => some none
  | setting => setting.asNumber?.map some

/-! ## Groups of settings -/

/-- A group of settings: a table by names, or a list by positions. -/
def isGroup : Setting → Bool
  | .table _ | .list _ => true
  | _ => false

/-- The setting of a name in a table, or at a position in a list. -/
def member? (setting : Setting) (position : Nat) (name : String) : Option Setting :=
  match setting with
  | .table entries => Table.get? entries name
  | .list items => items[position]?
  | _ => none

/-- A setting that has to be there. -/
def required {β : Type} (setting : Setting) (position : Nat) (name : String)
    (read : Setting → Option β) : Option β :=
  (setting.member? position name).bind read

/-- A setting with a value for where it is absent. -/
def withDefault {β : Type} (setting : Setting) (position : Nat) (name : String)
    (read : Setting → Option β) (value : β) : Option β :=
  match setting.member? position name with
  | some found => read found
  | none => if setting.isGroup then some value else none

/-- A number that a table may leave out; a list may not. -/
def optionalNumber (setting : Setting) (position : Nat) (name : String) :
    Option (Option Float) :=
  match setting, setting.member? position name with
  | _, some found => found.asOptionalNumber?
  | .table _, none => some none
  | _, none => none

end Setting

namespace ChannelConfig

/-- Reads what is said of a channel. -/
def ofSetting? (setting : Setting) : Option (ChannelConfig Float) := do
  let initial ← setting.withDefault 0 "initial" Setting.asNumber? 0
  return ⟨initial, ← setting.optionalNumber 1 "slew_rate"⟩

end ChannelConfig

namespace LogLocation

/-- Reads which places are named. -/
def ofSetting? (setting : Setting) : Option LogLocation := do
  return ⟨← setting.required 0 "show_file" Setting.asTruth?,
    ← setting.required 1 "show_line" Setting.asTruth?⟩

end LogLocation

namespace LogFormat

/-- Reads how messages are written. -/
def ofSetting? (setting : Setting) : Option LogFormat := do
  return ⟨← setting.required 0 "show_time" Setting.asTruth?,
    ← setting.withDefault 1 "json" Setting.asTruth? false,
    ← setting.required 2 "location" LogLocation.ofSetting?⟩

end LogFormat

namespace Levels

/-- Reads which levels are switched on. -/
def ofSetting? (setting : Setting) : Option Levels := do
  return ⟨← setting.required 0 "debug" Setting.asTruth?,
    ← setting.required 1 "info" Setting.asTruth?,
    ← setting.required 2 "warning" Setting.asTruth?,
    ← setting.required 3 "error" Setting.asTruth?⟩

end Levels

namespace Logging

/-- Reads what is logged. -/
def ofSetting? (setting : Setting) : Option Logging := do
  return ⟨← setting.required 0 "verbose" Setting.asTruth?,
    ← setting.required 1 "format" LogFormat.ofSetting?,
    ← setting.required 2 "levels" Levels.ofSetting?⟩

end Logging

namespace Config

/-- Reads the channels of the plant. -/
def channelsOfSetting? (setting : Setting) : Option (Table (ChannelConfig Float)) :=
  match setting with
  | .table entries => do
      let channels ← entries.mapM fun (name, setting) => do
        return (name, ← ChannelConfig.ofSetting? setting)
      return Table.ofList channels
  | _ => none

/-- Reads a configuration. -/
def ofSetting? (setting : Setting) : Option (Config Float) := do
  let pollInterval ← setting.required 0 "engine" fun engine =>
    engine.required 0 "poll_interval_ms" Setting.asCount?
  let defaultSlewRate ← setting.withDefault 1 "simulation"
    (fun simulation => simulation.optionalNumber 0 "default_slew_rate") none
  let channels ← setting.withDefault 2 "process"
    (fun plant => plant.withDefault 0 "channels" channelsOfSetting? []) []
  let logging ← setting.required 3 "logging" Logging.ofSetting?
  return ⟨pollInterval, defaultSlewRate, channels, logging⟩

/-- The settings that the layers come to. -/
def settings (main besides : Option ConfigFile) (environment : List (String × String)) :
    Except ConfigError Setting := do
  let layer (file : ConfigFile) : Except ConfigError (List (String × Setting)) :=
    match file.layer? with
    | some layer => .ok layer
    | none => .error .unreadableFile
  let first ← match main with
    | some file => layer file
    | none => throw .missingFile
  let second ← match besides with
    | some file => layer file
    | none => pure []
  return ((Setting.overlay (.table []) first).overlay second).overlay
    (Setting.layerOfEnvironment environment)

/-- Loads a configuration from its main file, the local file beside it, and environment
variables. -/
def ofFiles (main besides : Option ConfigFile) (environment : List (String × String)) :
    Except ConfigError (Config Float) := do
  match ofSetting? (← settings main besides environment) with
  | some config => return config
  | none => throw .unusable

/-- Loads a configuration from files in YAML. -/
def load (main besides : Option String) (environment : List (String × String)) :
    Except ConfigError (Config Float) :=
  ofFiles (main.map ConfigFile.ofYaml) (besides.map ConfigFile.ofYaml) environment

end Config

end Scan
