import Scan.Json.Printer
import Scan.Yaml.Cursor

/-!
# Writing YAML

Data is written in flow style with every text in double quotes. The mark in front of each key lets
it be as long as it likes.
-/

namespace Scan.Yaml

/-- A character as it stands in double quotes. What must not stand in a text, and what would end a
line, is written by its number. -/
def escapeChar (c : Char) : String :=
  if isAllowed c && !isBreak c then Json.escapeChar c
  else
    let digit (place : Nat) : Char := Nat.digitChar (c.toNat / Nat.pow 16 place % 16)
    "\\u" ++ String.ofList [digit 3, digit 2, digit 1, digit 0]

/-- A text in double quotes. -/
def quote (text : String) : String :=
  "\"" ++ String.join (text.toList.map escapeChar) ++ "\""

mutual

/-- Data in flow style. -/
def ofValue : Json.Value → String
  | .null => "null"
  | .bool true => "true"
  | .bool false => "false"
  | .number value => value.render
  | .string text => quote text
  | .array items => "[" ++ ", ".intercalate (ofItems items) ++ "]"
  | .object members => "\x7b" ++ ", ".intercalate (ofMembers members) ++ "\x7d"

/-- The items of an array. -/
def ofItems : List Json.Value → List String
  | [] => []
  | item :: rest => ofValue item :: ofItems rest

/-- The members of an object. -/
def ofMembers : List (String × Json.Value) → List String
  | [] => []
  | (name, value) :: rest => ("? " ++ quote name ++ " : " ++ ofValue value) :: ofMembers rest

end

end Scan.Yaml
