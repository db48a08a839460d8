import Scan.Text.Hex
import Scan.Text.Hidden

/-!
# Quoted texts in messages

A text quoted for a reader: quotes, backslashes and characters that do not show are escaped.
-/

namespace Scan.Text

/-- A character as it stands in a quoted text. -/
def showChar (c : Char) : String :=
  if c == '"' then "\\\""
  else if c == '\\' then "\\\\"
  else if c == '\n' then "\\n"
  else if c == '\r' then "\\r"
  else if c == '\t' then "\\t"
  else if c.toNat == 0 then "\\0"
  else if isHidden c then "\\u\x7b" ++ hexDigits c.toNat ++ "\x7d"
  else String.singleton c

/-- A text in double quotes. -/
def shown (text : String) : String :=
  "\"" ++ String.join (text.toList.map showChar) ++ "\""

end Scan.Text
