import Scan.Format.Magnitude
import Scan.Format.Parse

/-!
# Settings in RON

Structures and maps are tables, tuples and lists are lists, and what is optional is nil or the value
itself. The names of structures say nothing.
-/

namespace Scan.Format.Ron

open Parse

/-- Takes the rest of a comment in which others may stand; `depth` of them are open. -/
def skipNested (depth fuel : Nat) : Parse Unit := do
  match fuel with
  | 0 => fail
  | fuel + 1 =>
      if depth == 0 then return
      else if ← accept "*/" then skipNested (depth - 1) fuel
      else if ← accept "/*" then skipNested (depth + 1) fuel
      else
        drop 1
        skipNested depth fuel

/-- Takes blanks and comments. -/
def skipSpace (fuel : Nat) : Parse Unit := do
  discard (takeWhile fun c => c == ' ' || c == '\t' || c == '\n' || c == '\r')
  match fuel with
  | 0 => return
  | fuel + 1 =>
      if ← accept "//" then
        discard (takeWhile (· != '\n'))
        skipSpace fuel
      else if ← accept "/*" then
        skipNested 1 ((← rest).length + 2)
        skipSpace fuel

/-- Takes a word and the blanks in front of it, and tells whether it was there. -/
def acceptWord (word : String) : Parse Bool := do
  skipSpace (← rest).length
  accept word

/-! ## Texts and numbers -/

/-- The character of an escape after its backslash. -/
def escape : Parse Char := do
  match ← next with
  | 'n' => return '\n'
  | 'r' => return '\r'
  | 't' => return '\t'
  | '0' => return Char.ofNat 0
  | '"' => return '"'
  | '\'' => return '\''
  | '\\' => return '\\'
  | 'x' => do
      let found ← lift (Text.readCode 2 (← rest))
      drop 2
      return found
  | 'u' => do
      expect "\x7b"
      let digits ← takeWhile (· != '\x7d')
      expect "\x7d"
      if digits.isEmpty || 6 < digits.length then fail
      lift (Text.readCode digits.length digits)
  | _ => fail

/-- The characters of a text up to its closing quote. -/
def quoted (gathered : List Char) (fuel : Nat) : Parse String := do
  match fuel with
  | 0 => fail
  | fuel + 1 =>
      let c ← next
      if c == '"' then return String.ofList gathered.reverse
      else if c == '\\' then quoted ((← escape) :: gathered) fuel
      else quoted (c :: gathered) fuel

/-- A text without escapes after its mark: it ends at a quote with as many number signs after it as
there are in front of it. -/
def rawText : Parse String := do
  let signs ← takeWhile (· == '#')
  expect "\""
  return String.ofList (← takeThrough (String.ofList ('"' :: signs)) ((← rest).length + 1))

/-- A single character in quotes. -/
def character : Parse Char := do
  expect "'"
  let c ← next
  let found ← if c == '\\' then escape else pure c
  expect "'"
  return found

/-- A number. -/
def number : Parse Setting := do
  let negative ← accept "-"
  unless negative do discard (accept "+")
  let whole (base : Nat) : Parse Setting := do
    let digits ← takeWhile fun c => c.isAlphanum || c == '_'
    let value ← lift (Magnitude.readDigits base (digits.filter (· != '_')))
    return (Magnitude.whole value).toSetting negative
  if ← accept "0x" then whole 16
  else if ← accept "0o" then whole 8
  else if ← accept "0b" then whole 2
  else if ← accept "inf" then return (Magnitude.real (1.0 / 0.0)).toSetting negative
  else if ← accept "NaN" then return (Magnitude.real (0.0 / 0.0)).toSetting negative
  else
    let digits ← takeWhile fun c => c.isDigit || c == '_' || c == '.'
    let power ← match ← peek with
      | some c =>
          if c == 'e' || c == 'E' then do
            drop 1
            pure ('e' :: (← takeWhile fun c => c.isDigit || c == '+' || c == '-'))
          else pure []
      | none => pure []
    return (← lift (Magnitude.readDecimal ((digits ++ power).filter (· != '_')))).toSetting negative

/-! ## Values -/

/-- Whether a character may start an identifier. -/
def startsName (c : Char) : Bool :=
  c.isAlpha || c == '_'

/-- Whether a character may stand in an identifier. -/
def isNameChar (c : Char) : Bool :=
  c.isAlphanum || c == '_'

/-- Looks whether an identifier and a colon after it are next: a field of a structure. -/
def seesField : Parse Bool := do
  let start ← rest
  let name ← takeWhile isNameChar
  let found ← acceptWord ":"
  set start
  return found && (name.head?.map startsName).getD false

mutual

/-- A value with the blanks in front of it. -/
def value (fuel : Nat) : Parse Setting := do
  match fuel with
  | 0 => fail
  | fuel + 1 =>
      skipSpace (← rest).length
      match ← rest with
      | '[' :: _ => do
          drop 1
          return .list (← items "]" fuel)
      | '\x7b' :: _ => do
          drop 1
          return .table (Table.ofList (← entries fuel))
      | '(' :: ')' :: _ => do
          drop 2
          return .nil
      | '(' :: _ => do
          drop 1
          structureBody fuel
      | '"' :: more => do
          drop 1
          return .text (← quoted [] (more.length + 1))
      | '\'' :: _ => return .text (String.singleton (← character))
      | 'r' :: '"' :: _ | 'r' :: '#' :: _ => do
          drop 1
          return .text (← rawText)
      | c :: _ => if startsName c then named fuel else number
      | [] => fail

/-- A value that starts with an identifier. -/
def named (fuel : Nat) : Parse Setting := do
  match fuel with
  | 0 => fail
  | fuel + 1 =>
      match String.ofList (← takeWhile isNameChar) with
      | "true" => return .truth true
      | "false" => return .truth false
      | "inf" => return .real (1.0 / 0.0)
      | "NaN" => return .real (0.0 / 0.0)
      | "None" => return .nil
      | "Some" => do
          unless ← acceptWord "(" do fail
          let found ← value fuel
          discard (acceptWord ",")
          if ← acceptWord ")" then return found else fail
      | _ => if ← acceptWord "(" then structureBody fuel else return .nil

/-- What stands between the parentheses of a structure or a tuple. -/
def structureBody (fuel : Nat) : Parse Setting := do
  match fuel with
  | 0 => fail
  | fuel + 1 =>
      skipSpace (← rest).length
      if ← seesField then return .table (Table.ofList (← fields fuel))
      else return .list (← items ")" fuel)

/-- The items of a list up to its closing mark. -/
def items (close : String) (fuel : Nat) : Parse (List Setting) := do
  match fuel with
  | 0 => fail
  | fuel + 1 =>
      if ← acceptWord close then return []
      let item ← value fuel
      if ← acceptWord "," then return item :: (← items close fuel)
      if ← acceptWord close then return [item] else fail

/-- The entries of a map up to its closing brace. A key has to be a text. -/
def entries (fuel : Nat) : Parse (List (String × Setting)) := do
  match fuel with
  | 0 => fail
  | fuel + 1 =>
      if ← acceptWord "\x7d" then return []
      match ← value fuel with
      | .text key => do
          unless ← acceptWord ":" do fail
          let found ← value fuel
          if ← acceptWord "," then return (key, found) :: (← entries fuel)
          if ← acceptWord "\x7d" then return [(key, found)] else fail
      | _ => fail

/-- The fields of a structure up to its closing parenthesis. -/
def fields (fuel : Nat) : Parse (List (String × Setting)) := do
  match fuel with
  | 0 => fail
  | fuel + 1 =>
      if ← acceptWord ")" then return []
      let key ← takeWhile isNameChar
      if key.isEmpty then fail
      unless ← acceptWord ":" do fail
      let found ← value fuel
      let entry := (String.ofList key, found)
      if ← acceptWord "," then return entry :: (← fields fuel)
      if ← acceptWord ")" then return [entry] else fail

end

/-- Takes the list of extensions that may stand in front of the value. -/
def skipExtensions (fuel : Nat) : Parse Unit := do
  match fuel with
  | 0 => return
  | fuel + 1 =>
      if ← acceptWord "#![enable(" then
        discard (takeThrough ")]" ((← rest).length + 1))
        skipExtensions fuel

/-- The setting of a text. -/
def read (text : String) : Option Setting :=
  Parse.run (do
    skipExtensions text.length
    let setting ← value (3 * text.length + 3)
    skipSpace text.length
    return setting) text

end Scan.Format.Ron
