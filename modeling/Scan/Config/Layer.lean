import Scan.Format

/-!
# Layers of a configuration

A layer is a file with a table of settings, or a set of environment variables. The value of a
variable is always a text.
-/

namespace Scan

/-- A configuration file: its format, if its name tells one, and its text. -/
structure ConfigFile where
  format : Option Format
  text : String
  deriving Repr

namespace ConfigFile

/-- The file of a text in YAML. -/
def ofYaml (text : String) : ConfigFile :=
  ⟨some .yaml, text⟩

/-- The layer of a file, if it can be read. A mark of byte order in front of the text does not
count. -/
def layer? (file : ConfigFile) : Option (List (String × Setting)) := do
  let format ← file.format
  format.read (match file.text.toList with
    | c :: rest => if c.toNat == 0xFEFF then String.ofList rest else file.text
    | [] => file.text)

end ConfigFile

namespace Setting

/-! ## Environment variables -/

/-- What the names of the variables of a layer start with. -/
def variableStem : String := "scanctl__"

/-- A letter made small. Beside the capital letters of ASCII only the sign for kelvin becomes a
letter that a path may hold. -/
def smallLetter (c : Char) : Char :=
  if c.toNat == 0x212A then 'k' else c.toLower

/-- The layer of some environment variables: of those with the stem in front of their names, in any
case of letters. Two low lines in the rest of the name separate the parts of a path. -/
def layerOfEnvironment (environment : List (String × String)) : List (String × Setting) :=
  environment.filterMap fun (name, value) =>
    let chars := name.toList.map smallLetter
    if variableStem.toList.isPrefixOf chars then
      let rest := String.ofList (chars.drop variableStem.length)
      some (".".intercalate (rest.splitOn "__"), .text value)
    else none

end Setting

end Scan
