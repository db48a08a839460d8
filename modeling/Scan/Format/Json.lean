import Scan.Config.Setting
import Scan.Json.Document

/-!
# Settings in JSON

An integer that does not fit a signed machine word is read as a floating-point number.
-/

namespace Scan.Format.Json

open Scan.Json (Number Value)

/-- The setting that a number is. -/
def ofNumber : Number → Setting
  | .natural value =>
      if value.toNat < Nat.pow 2 63 then .integer value.toNat else .real value.toFloat
  | .negative value => .integer value.toInt
  | .float value => .real value

mutual

/-- The setting that a value is. -/
def ofValue : Value → Setting
  | .null => .nil
  | .bool value => .truth value
  | .number value => ofNumber value
  | .string value => .text value
  | .array items => .list (ofItems items)
  | .object members => .table (Table.ofList (ofMembers members))

/-- The settings that values are. -/
def ofItems : List Value → List Setting
  | [] => []
  | item :: rest => ofValue item :: ofItems rest

/-- The settings that the values of members are. -/
def ofMembers : List (String × Value) → List (String × Setting)
  | [] => []
  | (name, value) :: rest => (name, ofValue value) :: ofMembers rest

end

/-- The setting of a text. -/
def read (text : String) : Option Setting :=
  (Value.parse? text).map ofValue

end Scan.Format.Json
