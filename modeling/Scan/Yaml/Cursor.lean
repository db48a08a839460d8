/-!
# Places in a YAML text

A cursor is the rest of a text together with the line and column where it starts. The character
classes that the lexer asks for are tests on the rest.
-/

namespace Scan.Yaml

/-- Why a text is not YAML. -/
inductive Problem where
  /-- A character that may not stand in a text. -/
  | character
  /-- The text ends, or a document does, inside a quoted text. -/
  | unterminated
  /-- A character that starts nothing. -/
  | unexpected
  /-- A tab where only spaces count. -/
  | tab
  /-- A key of a block mapping without its colon. -/
  | missingColon
  /-- An entry, a key or a value where none may start. -/
  | misplaced
  | escape
  | directive
  | anchor
  | tag
  | blockHeader
  /-- Nothing that could be a node, or no end of a collection. -/
  | node
  /-- An alias for what has not been named before. -/
  | alias
  deriving BEq, DecidableEq, Repr

/-- A place in a text. Columns are counted in characters, the way to it from the start in octets. -/
structure Cursor where
  rest : List Char
  index : Nat := 0
  line : Nat := 0
  column : Nat := 0
  deriving Repr

/-- The number of octets of some characters. -/
def octetCount (chars : List Char) : Nat :=
  chars.foldl (fun count c => count + c.utf8Size) 0

/-- Whether a character ends a line. -/
def isBreak (c : Char) : Bool :=
  c == '\n' || c == '\r' || c.toNat == 0x85 || c.toNat == 0x2028 || c.toNat == 0x2029

/-- Whether a character is a space or a tab. -/
def isSpace (c : Char) : Bool :=
  c == ' ' || c == '\t'

/-- Whether a character may stand in a name. -/
def isNameChar (c : Char) : Bool :=
  c.isAlphanum || c == '_' || c == '-'

/-- The mark of byte order, which may stand in front of a line. -/
def isByteOrderMark (c : Char) : Bool :=
  c.toNat == 0xFEFF

/-- Whether a character may stand in a text at all. -/
def isAllowed (c : Char) : Bool :=
  let code := c.toNat
  code == 0x09 || code == 0x0A || code == 0x0D || (0x20 ≤ code && code ≤ 0x7E) || code == 0x85 ||
    (0xA0 ≤ code && code ≤ 0xD7FF) || (0xE000 ≤ code && code ≤ 0xFFFD) || 0x10000 ≤ code

/-- Whether a list starts with a space, a tab or the end of a line, or is at its end. -/
def startsBlank : List Char → Bool
  | [] => true
  | c :: _ => isSpace c || isBreak c

/-- Whether a list starts with the end of a line or is at its end. -/
def startsBreak : List Char → Bool
  | [] => true
  | c :: _ => isBreak c

namespace Cursor

/-- The start of a text. -/
def ofText (text : String) : Cursor :=
  { rest := text.toList }

/-- The character at a distance. -/
def peek? (cursor : Cursor) (distance : Nat) : Option Char :=
  cursor.rest[distance]?

/-- Whether a given character is next. -/
def looksAt (cursor : Cursor) (c : Char) : Bool :=
  cursor.rest.head? == some c

/-- Whether the text is over. -/
def atEnd (cursor : Cursor) : Bool :=
  cursor.rest.isEmpty

/-- The place after some characters of a line. -/
def skipMany (cursor : Cursor) (count : Nat) : Cursor :=
  { cursor with
    rest := cursor.rest.drop count, index := cursor.index + octetCount (cursor.rest.take count)
    column := cursor.column + count }

/-- The place after one character of a line. -/
def skip (cursor : Cursor) : Cursor :=
  cursor.skipMany 1

/-- The end of a line as it is kept in a text, and the place after it. A carriage return and a line
feed count as one end. -/
def readBreak (cursor : Cursor) : List Char × Cursor :=
  let next (count : Nat) : Cursor :=
    { rest := cursor.rest.drop count, index := cursor.index + octetCount (cursor.rest.take count)
      line := cursor.line + 1, column := 0 }
  match cursor.rest with
  | '\r' :: '\n' :: _ => (['\n'], next 2)
  | c :: _ =>
      if c == '\n' || c == '\r' || c.toNat == 0x85 then (['\n'], next 1)
      else if isBreak c then ([c], next 1)
      else ([], cursor)
  | [] => ([], cursor)

/-- The place after the end of a line. -/
def skipBreak (cursor : Cursor) : Cursor :=
  cursor.readBreak.2

/-- The place after a mark of byte order at the start of a line, if there is one. -/
def skipByteOrderMark (cursor : Cursor) : Cursor :=
  if cursor.column == 0 && (cursor.rest.head?.map isByteOrderMark).getD false then cursor.skip
  else cursor

/-- The place after the characters that satisfy a test. -/
def skipWhile (cursor : Cursor) (test : Char → Bool) : Cursor :=
  cursor.skipMany (cursor.rest.takeWhile test).length

/-- The characters that satisfy a test, and the place after them. -/
def readWhile (cursor : Cursor) (test : Char → Bool) : List Char × Cursor :=
  (cursor.rest.takeWhile test, cursor.skipWhile test)

/-- Whether a mark of three characters at the start of a line begins or ends a document. -/
def atDocumentMark (cursor : Cursor) : Bool :=
  cursor.column == 0 &&
    match cursor.rest with
    | '-' :: '-' :: '-' :: rest | '.' :: '.' :: '.' :: rest => startsBlank rest
    | _ => false

end Cursor

end Scan.Yaml
