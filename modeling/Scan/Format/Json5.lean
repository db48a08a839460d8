import Scan.Format.Magnitude
import Scan.Format.Parse
import Scan.Json.Document
import Scan.Text.Blank
import Scan.Text.Word

/-!
# Settings in JSON5

JSON as people write it: with comments, names without quotes, single quotes, commas at the end, and
more ways to write numbers.
-/

namespace Scan.Format.Json5

open Parse

/-- Whether a character ends a line. -/
def isBreak (c : Char) : Bool :=
  c == '\n' || c == '\r' || c.toNat == 0x2028 || c.toNat == 0x2029

/-- Whether a character may stand between words. -/
def isSpace (c : Char) : Bool :=
  (Text.isBlank c && c.toNat != 0x85) || c.toNat == 0xFEFF

/-- Takes blanks and comments. -/
def skipSpace (fuel : Nat) : Parse Unit := do
  discard (takeWhile isSpace)
  match fuel with
  | 0 => return
  | fuel + 1 =>
      if ← accept "/*" then
        discard (takeThrough "*/" ((← rest).length + 1))
        skipSpace fuel
      else if ← accept "//" then
        discard (takeWhile (!isBreak ·))
        skipSpace fuel

/-- Takes a word and the blanks in front of it, and tells whether it was there. -/
def acceptWord (word : String) : Parse Bool := do
  skipSpace (← rest).length
  accept word

/-! ## Texts and names -/

/-- A letter that stands for another character after a backslash. -/
def letterEscape (c : Char) : Char :=
  match c with
  | 'b' => Char.ofNat 8
  | 'f' => Char.ofNat 12
  | 'n' => '\n'
  | 'r' => '\r'
  | 't' => '\t'
  | 'v' => Char.ofNat 11
  | '0' => Char.ofNat 0
  | _ => c

/-- The characters of an escape after its backslash: none if it hides the end of a line. -/
def escape : Parse (List Char) := do
  match ← next with
  | 'x' => do
      let found ← lift (Text.readCode 2 (← rest))
      drop 2
      return [found]
  | 'u' => do
      let (found, more) ← lift (Json.Document.readCodePoint (← rest))
      set more
      return [found]
  | '\r' => do
      discard (accept "\n")
      return []
  | c =>
      if isBreak c then return []
      else if c.isDigit && c != '0' then fail
      else return [letterEscape c]

/-- The characters of a text up to its closing quote. -/
def quoted (quote : Char) (gathered : List Char) (fuel : Nat) : Parse String := do
  match fuel with
  | 0 => fail
  | fuel + 1 =>
      let c ← next
      if c == quote then return String.ofList gathered.reverse
      else if c == '\\' then quoted quote ((← escape).reverse ++ gathered) fuel
      else if isBreak c then fail
      else quoted quote (c :: gathered) fuel

/-- A text in quotes of either kind. -/
def text : Parse String := do
  let quote ← next
  if quote == '"' || quote == '\'' then quoted quote [] ((← rest).length + 1) else fail

/-- Whether a character may start a name without quotes. -/
def startsName (c : Char) : Bool :=
  (Text.isWordChar c && !c.isDigit) || c == '$' || c == '_'

/-- Whether a character may stand in a name without quotes. -/
def isNameChar (c : Char) : Bool :=
  startsName c || c.isDigit || c.toNat == 0x200C || c.toNat == 0x200D

/-- A name, with or without quotes. -/
def name : Parse String := do
  match ← peek with
  | some c =>
      if startsName c then return String.ofList (← takeWhile isNameChar) else text
  | none => fail

/-! ## Numbers -/

/-- Whether digits are written as those of an integer part: a zero stands alone. -/
def isWhole (digits : List Char) : Bool :=
  digits.head? != some '0' || digits.length == 1

/-- The number that characters are, after the sign. -/
def magnitude (chars : List Char) : Option Magnitude :=
  match chars with
  | '0' :: 'x' :: digits | '0' :: 'X' :: digits =>
      (Magnitude.readDigits 16 digits).map Magnitude.whole
  | _ =>
      let word := String.ofList chars
      if word == "Infinity" then some (.real (1.0 / 0.0))
      else if word == "NaN" then some (.real (0.0 / 0.0))
      else if isWhole (chars.takeWhile Char.isDigit) then Magnitude.readDecimal chars
      else none

/-- A number. -/
def number : Parse Setting := do
  let negative ← accept "-"
  unless negative do discard (accept "+")
  let start ← takeWhile fun c => c.isAlphanum || c == '.'
  let isPower := (start.getLast? == some 'e' || start.getLast? == some 'E') &&
    !(start.take 2 == ['0', 'x'] || start.take 2 == ['0', 'X'])
  let power ← if isPower then takeWhile fun c => c.isDigit || c == '-' || c == '+' else pure []
  return (← lift (magnitude (start ++ power))).toSetting negative

/-! ## Values -/

mutual

/-- A value with the blanks in front of it. -/
def value (fuel : Nat) : Parse Setting := do
  match fuel with
  | 0 => fail
  | fuel + 1 =>
      skipSpace (← rest).length
      match ← peek with
      | some '\x7b' => do
          drop 1
          return .table (Table.ofList (← members fuel))
      | some '[' => do
          drop 1
          return .list (← items fuel)
      | some '"' | some '\'' => return .text (← text)
      | some 'n' => do
          expect "null"
          return .nil
      | some 't' => do
          expect "true"
          return .truth true
      | some 'f' => do
          expect "false"
          return .truth false
      | _ => number

/-- The items of a list up to its closing bracket. -/
def items (fuel : Nat) : Parse (List Setting) := do
  match fuel with
  | 0 => fail
  | fuel + 1 =>
      if ← acceptWord "]" then return []
      let item ← value fuel
      if ← acceptWord "," then return item :: (← items fuel)
      if ← acceptWord "]" then return [item] else fail

/-- The members of an object up to its closing brace. -/
def members (fuel : Nat) : Parse (List (String × Setting)) := do
  match fuel with
  | 0 => fail
  | fuel + 1 =>
      if ← acceptWord "\x7d" then return []
      let key ← name
      unless ← acceptWord ":" do fail
      let setting ← value fuel
      if ← acceptWord "," then return (key, setting) :: (← members fuel)
      if ← acceptWord "\x7d" then return [(key, setting)] else fail

end

/-- The setting of a text. -/
def read (text : String) : Option Setting :=
  Parse.run (do
    let setting ← value (2 * text.length + 2)
    skipSpace text.length
    return setting) text

end Scan.Format.Json5
