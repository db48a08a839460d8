import Scan.Yaml.Cursor

/-!
# Places in a YAML 1.2 text

In this version any character may stand in a text, only the two ends of lines of ASCII end a line,
and a zero character ends the text. Besides where it is, a place knows whether its line has been
blank so far, since indentation is made of spaces only.
-/

namespace Scan.Yaml12

open Yaml (Problem isSpace)

/-- A place in a text, counted in characters. -/
structure Place where
  rest : List Char
  index : Nat := 0
  line : Nat := 0
  column : Nat := 0
  /-- Whether the line has been blank so far. -/
  fresh : Bool := true
  deriving Repr

/-- Whether a character ends a line. -/
def isBreak (c : Char) : Bool :=
  c == '\n' || c == '\r'

/-- Whether a character is a mark of flow collections. -/
def isFlowMark (c : Char) : Bool :=
  c == ',' || c == '[' || c == ']' || c == '\x7b' || c == '\x7d'

/-- Whether a list starts with the end of a line or is at its end. -/
def startsBreak : List Char → Bool
  | [] => true
  | c :: _ => isBreak c

/-- Whether a list starts with a space, a tab or the end of a line, or is at its end. -/
def startsBlank : List Char → Bool
  | [] => true
  | c :: _ => isSpace c || isBreak c

/-- Whether a list starts with a mark of flow collections. -/
def startsFlowMark : List Char → Bool
  | [] => false
  | c :: _ => isFlowMark c

/-- Whether a list starts with the mark of the start of a document. -/
def startsDocument : List Char → Bool
  | '-' :: '-' :: '-' :: rest => startsBlank rest
  | _ => false

/-- Whether a list starts with the mark of the end of a document. -/
def endsDocument : List Char → Bool
  | '.' :: '.' :: '.' :: rest => startsBlank rest
  | _ => false

namespace Place

/-- The start of a text. -/
def ofText (text : String) : Place :=
  { rest := text.toList.takeWhile fun c => c.toNat != 0 }

/-- Whether a given character is next. -/
def looksAt (place : Place) (c : Char) : Bool :=
  place.rest.head? == some c

/-- Whether the text is over. -/
def atEnd (place : Place) : Bool :=
  place.rest.isEmpty

/-- The place after some characters of a line that are blank. -/
def skipBlanks (place : Place) (count : Nat) : Place :=
  { place with
    rest := place.rest.drop count, index := place.index + count, column := place.column + count }

/-- The place after some characters of a line. -/
def skip (place : Place) (count : Nat) : Place :=
  if count == 0 then place else { place.skipBlanks count with fresh := false }

/-- The place after the end of a line, if there is one. A carriage return and a line feed count as
one end. -/
def skipBreak (place : Place) : Place :=
  let next (count : Nat) : Place :=
    { rest := place.rest.drop count, index := place.index + count, line := place.line + 1
      column := 0, fresh := true }
  match place.rest with
  | '\r' :: '\n' :: _ => next 2
  | c :: _ => if isBreak c then next 1 else place
  | [] => place

/-- The characters that satisfy a test, and the place after them. -/
def readWhile (place : Place) (test : Char → Bool) : List Char × Place :=
  let found := place.rest.takeWhile test
  (found, place.skip found.length)

/-- The place at the end of the line. -/
def skipLine (place : Place) : Place :=
  (place.readWhile (!isBreak ·)).2

/-- Goes over the blanks of a line, and over a comment after them. A comment without a blank in
front of it is a fault. The blanks come with the place. -/
def skipToContent (place : Place) : Except Problem (List Char × Place) :=
  let blanks := place.rest.takeWhile isSpace
  let next := place.skipBlanks blanks.length
  if !next.looksAt '#' then .ok (blanks, next)
  else if blanks.isEmpty then .error .unexpected
  else .ok (blanks, next.skipLine)

end Place

end Scan.Yaml12
