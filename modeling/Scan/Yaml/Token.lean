/-!
# YAML tokens

The words of a YAML text. The ends of block collections have no characters of their own: they
stand where the indentation goes back.
-/

namespace Scan.Yaml

/-- A word of a YAML text. -/
inductive Token where
  | version (major minor : Nat)
  /-- What the handle of a tag stands for, in octets. -/
  | tagDirective (handle : String) (stem : List UInt8)
  | documentStart
  | documentEnd
  | blockSequenceStart
  | blockMappingStart
  | blockEnd
  | flowSequenceStart
  | flowSequenceEnd
  | flowMappingStart
  | flowMappingEnd
  | blockEntry
  | flowEntry
  | key
  | value
  | alias (name : String)
  | anchor (name : String)
  | tag (handle : String) (suffix : List UInt8)
  /-- A scalar; `plain` tells that it stands without quotes. -/
  | scalar (text : String) (plain : Bool)
  | streamEnd
  deriving BEq, DecidableEq, Repr

end Scan.Yaml
