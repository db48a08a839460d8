import Scan.Config.Setting
import Scan.Format.Parse
import Scan.Text.Blank
import Scan.Text.Hex

/-!
# Settings in INI files

Keys and values, which are always texts, in sections. The name of a section is the name of a table,
and of two sections of one name the last one counts. A comment takes a whole line.
-/

namespace Scan.Format.Ini

open Parse

/-- A letter that stands for another character after a backslash. -/
def letterEscape (c : Char) : Char :=
  match c with
  | '0' => Char.ofNat 0
  | 'a' => Char.ofNat 7
  | 'b' => Char.ofNat 8
  | 't' => '\t'
  | 'r' => '\r'
  | 'n' => '\n'
  | _ => c

/-- The characters of an escape after its backslash: none if it hides the end of a line. -/
def escape : Parse (List Char) := do
  match ← next with
  | '\n' => return []
  | 'x' => do
      let found ← lift (Text.readCode 4 (← rest))
      drop 4
      return [found]
  | c => return [letterEscape c]

/-- A text up to one of some characters, which is not taken. `atEnd` tells whether the end of all
may come instead. -/
def textUntil (stops : List Char) (atEnd : Bool) (fuel : Nat) : Parse (List Char) := do
  match fuel with
  | 0 => fail
  | fuel + 1 =>
      match ← peek with
      | none => if atEnd then return [] else fail
      | some c =>
          if stops.contains c then return []
          drop 1
          let found ← if c == '\\' then escape else pure [c]
          return found ++ (← textUntil stops atEnd fuel)

/-- A value after its mark: parts in quotes, and then what is left of the line without the blanks
at its end. Without a part in quotes the blanks in front of it do not count either. -/
def value (parts : List (List Char)) (fuel : Nat) : Parse String := do
  match fuel with
  | 0 => fail
  | fuel + 1 =>
      match ← peek with
      | some c =>
          if c == '"' || c == '\'' then
            drop 1
            let part ← textUntil [c] false ((← rest).length + 1)
            drop 1
            value (parts ++ [part]) fuel
          else
            let part ← textUntil ['\n', '\r'] true ((← rest).length + 1)
            let trimmed := (part.reverse.dropWhile Text.isBlank).reverse
            return String.ofList
              (if parts.isEmpty then Text.trimChars part else parts.flatten ++ trimmed)
      | none => return String.ofList parts.flatten

/-- A section: its name, none in front of the first one, and its keys with their values. -/
structure Section where
  name : Option String := none
  entries : List (String × Setting) := []

/-- Reads sections to the end of the text; `found` are those that are there, the current one first.
`fresh` tells whether the place is the start of a line, and `key` is waiting for its value. -/
def sections (found : List Section) (current : Section) (key : Option String) (fresh : Bool)
    (fuel : Nat) : Parse (List Section) := do
  match fuel with
  | 0 => fail
  | fuel + 1 =>
      let blanks ← takeWhile Text.isBlank
      let fresh := (blanks.getLast?.map (· == '\n')).getD fresh
      match ← peek with
      | none => return (current :: found).reverse
      | some c =>
          let size := (← rest).length + 1
          if c == ';' || c == '#' then
            if !fresh then fail
            discard (takeWhile (· != '\n'))
            sections found current key false fuel
          else if c == '[' then
            drop 1
            let name ← textUntil [']'] false size
            drop 1
            let name := String.ofList (Text.trimChars name)
            sections (current :: found) { name } key false fuel
          else if c == '=' || c == ':' then
            let name ← lift key
            drop 1
            discard (takeWhile fun c => Text.isBlank c && c != '\n' && c != '\r')
            let entry := (name, Setting.text (← value [] size))
            sections found { current with entries := current.entries ++ [entry] } none false fuel
          else
            let name := String.ofList (Text.trimChars (← textUntil ['=', ':'] false size))
            sections found current (if name.isEmpty then none else some name) false fuel

/-- The setting of a text. -/
def read (text : String) : Option Setting := do
  let found ← Parse.run (sections [] {} none true (text.length + 2)) text
  let entriesOf (part : Section) : List (String × Setting) :=
    match part.name with
    | some name => [(name, .table (Table.ofList part.entries))]
    | none => part.entries
  return .table (Table.ofList (found.map entriesOf).flatten)

end Scan.Format.Ini
