import Scan.Decimal.Notation
import Scan.Json.Value

/-!
# Writing JSON

Two layouts: everything on one line without blanks, and one item a line indented by two spaces a
level.
-/

namespace Scan.Json

/-- The written form of an integer or floating-point number. -/
def Number.render : Number → String
  | .natural value => toString value.toNat
  | .negative value => toString value.toInt
  | .float value => Decimal.data.write value

/-- A character as it stands inside a string. -/
def escapeChar (c : Char) : String :=
  if c == '"' then "\\\""
  else if c == '\\' then "\\\\"
  else if c == '\n' then "\\n"
  else if c == '\r' then "\\r"
  else if c == '\t' then "\\t"
  else if c.toNat == 8 then "\\b"
  else if c.toNat == 12 then "\\f"
  else if c.toNat < 32 then
    "\\u00" ++ String.ofList [Nat.digitChar (c.toNat / 16), Nat.digitChar (c.toNat % 16)]
  else String.singleton c

/-- A text as a string in double quotes. -/
def quote (text : String) : String :=
  "\"" ++ String.join (text.toList.map escapeChar) ++ "\""

namespace Value

mutual

/-- The value on one line without blanks. -/
def compact : Value → String
  | .null => "null"
  | .bool true => "true"
  | .bool false => "false"
  | .number value => value.render
  | .string text => quote text
  | .array items => "[" ++ ",".intercalate (compactItems items) ++ "]"
  | .object members => "\x7b" ++ ",".intercalate (compactMembers members) ++ "\x7d"

/-- The items on one line each. -/
def compactItems : List Value → List String
  | [] => []
  | item :: rest => compact item :: compactItems rest

/-- The members on one line each. -/
def compactMembers : List (String × Value) → List String
  | [] => []
  | (name, value) :: rest => (quote name ++ ":" ++ compact value) :: compactMembers rest

end

/-- The start of a line at a level of nesting. -/
def indentation (level : Nat) : String :=
  "\n" ++ String.ofList (List.replicate (2 * level) ' ')

/-- Items between brackets, one a line, and nothing between the brackets if there are none. -/
def block (opening closing : String) (level : Nat) (items : List String) : String :=
  if items.isEmpty then opening ++ closing
  else
    opening ++ indentation (level + 1) ++ ("," ++ indentation (level + 1)).intercalate items ++
      indentation level ++ closing

mutual

/-- The value over several lines, starting at a level of nesting. -/
def prettyAt (level : Nat) : Value → String
  | .array items => block "[" "]" level (prettyItems level items)
  | .object members => block "\x7b" "\x7d" level (prettyMembers level members)
  | .null => "null"
  | .bool true => "true"
  | .bool false => "false"
  | .number value => value.render
  | .string text => quote text

/-- The items of an array at a level of nesting. -/
def prettyItems (level : Nat) : List Value → List String
  | [] => []
  | item :: rest => prettyAt (level + 1) item :: prettyItems level rest

/-- The members of an object at a level of nesting. -/
def prettyMembers (level : Nat) : List (String × Value) → List String
  | [] => []
  | (name, value) :: rest =>
      (quote name ++ ": " ++ prettyAt (level + 1) value) :: prettyMembers level rest

end

/-- The value over several lines. -/
def pretty (value : Value) : String :=
  value.prettyAt 0

end Value

end Scan.Json
