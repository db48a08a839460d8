import Scan.Format.Ini
import Scan.Format.Json
import Scan.Format.Json5
import Scan.Format.Ron
import Scan.Format.Toml
import Scan.Format.Yaml

/-!
# Formats of configuration files

The format of a file is known by the ending of its name.
-/

namespace Scan

/-- A format of configuration files. -/
inductive Format where
  | toml
  | json
  | yaml
  | ini
  | ron
  | json5
  deriving BEq, DecidableEq, Repr

namespace Format

/-- The endings of names, with the formats that they stand for. -/
def endings : List (String × Format) :=
  [("toml", toml), ("json", json), ("yaml", yaml), ("yml", yaml), ("ini", ini), ("ron", ron),
    ("json5", json5)]

/-- The format of a file by its path. A dot in front of a name does not start an ending. -/
def ofPath? (path : String) : Option Format :=
  match (((path.splitOn "/").getLastD "").splitOn ".").reverse with
  | ending :: stem =>
      if stem.all String.isEmpty && stem.length ≤ 1 then none
      else (endings.find? fun entry => entry.1 == ending).map Prod.snd
  | [] => none

/-- The setting that a text in a format stands for. -/
def readSetting : Format → String → Option Setting
  | toml => Toml.read
  | json => Json.read
  | yaml => Yaml.read
  | ini => Ini.read
  | ron => Ron.read
  | json5 => Json5.read

/-- The settings that a text in a format stands for. It has to be a table. -/
def read (format : Format) (text : String) : Option (List (String × Setting)) :=
  match format.readSetting text with
  | some (.table entries) => some entries
  | _ => none

end Format

end Scan
