import Scan.Yaml.Scalar
import Scan.Yaml.Token

/-!
# From text to tokens

A key of a block mapping needs no mark in front of it. So every place where such a key may start is
remembered, and if a colon follows on the same line, the missing tokens are put in there after the
fact. Indentation opens and closes the block collections.
-/

namespace Scan.Yaml

open Text (hexDigit?)

/-- A place where a key without a mark may have started. -/
structure KeyPlace where
  /-- How many tokens stand before it. -/
  position : Nat
  /-- Whether nothing else may stand there. -/
  required : Bool
  index : Nat
  line : Nat
  column : Nat
  deriving Repr

/-- The state between two tokens. -/
structure Lexer where
  cursor : Cursor
  tokens : Array Token := #[]
  /-- The indentation of the block collections around this place, innermost first. -/
  indents : List Nat := []
  /-- One entry for each flow collection around this place and one for the block, innermost first:
  where its current key may have started. -/
  keys : List (Option KeyPlace) := [none]
  /-- Whether a key without a mark may start here. -/
  keyAllowed : Bool := true

namespace Lexer

/-- Whether the place is inside a flow collection. -/
def inFlow (lexer : Lexer) : Bool :=
  1 < lexer.keys.length

/-- The column where a line of the innermost block collection has to go beyond. -/
def indent? (lexer : Lexer) : Option Nat :=
  lexer.indents.head?

/-- Whether a column lies to the right of the innermost block collection. -/
def isDeeper (lexer : Lexer) (column : Nat) : Bool :=
  match lexer.indent? with
  | some indent => indent < column
  | none => true

/-- The lexer after a token of its own. -/
def emit (lexer : Lexer) (token : Token) : Lexer :=
  { lexer with tokens := lexer.tokens.push token }

/-- Moves the place. -/
def moveTo (lexer : Lexer) (cursor : Cursor) : Lexer :=
  { lexer with cursor := cursor }

/-- Sets whether a key may start here. -/
def allowKey (lexer : Lexer) (allowed : Bool) : Lexer :=
  { lexer with keyAllowed := allowed }

/-- Sets where the current key may have started. -/
def setKey (lexer : Lexer) (key : Option KeyPlace) : Lexer :=
  { lexer with keys := key :: lexer.keys.tail }

/-- The longest key without a mark, in octets. -/
def maxKeyLength : Nat := 1024

/-- Forgets the places from which no key can reach here: those on another line or too far back. A
required one must not be forgotten. -/
def dropStaleKeys (lexer : Lexer) : Except Problem Lexer := do
  let check (place : Option KeyPlace) : Except Problem (Option KeyPlace) :=
    match place with
    | none => .ok none
    | some key =>
        if key.line != lexer.cursor.line || key.index + maxKeyLength < lexer.cursor.index then
          if key.required then .error .missingColon else .ok none
        else .ok (some key)
  let keys ← lexer.keys.mapM check
  return { lexer with keys := keys }

/-- Gives up the current key, which must not be a required one. -/
def dropKey (lexer : Lexer) : Except Problem Lexer :=
  match lexer.keys.head?.join with
  | some key => if key.required then .error .missingColon else .ok (lexer.setKey none)
  | none => .ok lexer

/-- Remembers that a key may start here. -/
def saveKey (lexer : Lexer) : Except Problem Lexer :=
  if lexer.keyAllowed then do
    let cursor := lexer.cursor
    let required := !lexer.inFlow && lexer.indent? == some cursor.column
    let lexer ← lexer.dropKey
    return lexer.setKey (some
      { position := lexer.tokens.size, required, index := cursor.index, line := cursor.line
        column := cursor.column })
  else .ok lexer

/-- Opens a block collection at a column, unless one is open there; its start goes to a position
among the tokens. -/
def openBlock (lexer : Lexer) (column position : Nat) (token : Token) : Lexer :=
  if !lexer.inFlow && lexer.isDeeper column then
    { lexer with
      indents := column :: lexer.indents
      tokens := lexer.tokens.insertIdxIfInBounds position token }
  else lexer

/-- Closes the block collections of which `column` lies to the left; without a column, all. -/
def closeBlocks (lexer : Lexer) (column : Option Nat) : Lexer :=
  if lexer.inFlow then lexer
  else
    let isClosed (indent : Nat) : Bool := match column with
      | some column => column < indent
      | none => true
    let closed := lexer.indents.takeWhile isClosed
    { lexer with
      indents := lexer.indents.dropWhile isClosed
      tokens := lexer.tokens ++ (closed.map fun _ => Token.blockEnd).toArray }

/-- Goes to the next token, over blanks, comments and ends of lines. A key may start on every new
line of a block; a tab does not count as a blank where one may start. A mark of byte order in front
of a line counts as a column. -/
def skipToToken (lexer : Lexer) (fuel : Nat) : Lexer :=
  let cursor := lexer.cursor.skipByteOrderMark.skipWhile fun c =>
    c == ' ' || (c == '\t' && (lexer.inFlow || !lexer.keyAllowed))
  let cursor := if cursor.looksAt '#' then cursor.skipWhile (!isBreak ·) else cursor
  match fuel, cursor.rest with
  | fuel + 1, c :: _ =>
      if isBreak c then
        skipToToken { lexer with
          cursor := cursor.skipBreak, keyAllowed := lexer.keyAllowed || !lexer.inFlow } fuel
      else lexer.moveTo cursor
  | _, _ => lexer.moveTo cursor

/-! ## Directives, names and tags -/

/-- Digits of a version number. -/
def readVersionNumber (cursor : Cursor) : Except Problem (Nat × Cursor) :=
  let (digits, next) := cursor.readWhile Char.isDigit
  if digits.isEmpty || 9 < digits.length then .error .directive
  else .ok (digits.foldl (fun value digit => 10 * value + (digit.toNat - '0'.toNat)) 0, next)

/-- The handle of a tag, with the mark at its start and, except in a short one, at its end. -/
def readTagHandle (inDirective : Bool) (cursor : Cursor) : Except Problem (List Char × Cursor) :=
  if !cursor.looksAt '!' then .error .tag
  else
    let (name, next) := cursor.skip.readWhile isNameChar
    if next.looksAt '!' then .ok ('!' :: name ++ ['!'], next.skip)
    else if inDirective && !name.isEmpty then .error .tag
    else .ok ('!' :: name, next)

/-- Whether a character may stand in a tag; brackets and commas only in one that is written out. -/
def isTagChar (verbatim : Bool) (c : Char) : Bool :=
  isNameChar c || ";/?:@&=+$.%!~*'()".toList.contains c ||
    (verbatim && (c == ',' || c == '[' || c == ']'))

/-- The octet of an escape in a tag. -/
def readTagOctet : List Char → Option UInt8
  | '%' :: high :: low :: _ =>
      match hexDigit? high, hexDigit? low with
      | some high, some low => some (UInt8.ofNat (16 * high + low))
      | _, _ => none
  | _ => none

/-- How many octets belong together by the first of them. -/
def sequenceLength (first : UInt8) : Option Nat :=
  let value := first.toNat
  if value < 0x80 then some 1
  else if 0xC0 ≤ value && value < 0xE0 then some 2
  else if 0xE0 ≤ value && value < 0xF0 then some 3
  else if 0xF0 ≤ value && value < 0xF8 then some 4
  else none

/-- Octets of a tag that belong together and are written as escapes. Whether they stand for a
character is not asked. -/
def readTagEscape (chars : List Char) : Option (List UInt8) := do
  let first ← readTagOctet chars
  let length ← sequenceLength first
  let others ← (List.range (length - 1)).mapM fun index =>
    (readTagOctet (chars.drop (3 * (index + 1)))).filter fun octet => octet &&& 0xC0 == 0x80
  return first :: others

/-- The octets of a tag, gathered in reverse. -/
def readTagOctets (verbatim : Bool) (gathered : List UInt8) (cursor : Cursor) (fuel : Nat) :
    Except Problem (List UInt8 × Cursor) :=
  match fuel, cursor.rest with
  | fuel + 1, c :: _ =>
      if !isTagChar verbatim c then .ok (gathered.reverse, cursor)
      else if c == '%' then
        match readTagEscape cursor.rest with
        | some found =>
            readTagOctets verbatim (found.reverse ++ gathered) (cursor.skipMany (3 * found.length))
              fuel
        | none => .error .tag
      else readTagOctets verbatim (c.toUInt8 :: gathered) cursor.skip fuel
  | _, _ => .ok (gathered.reverse, cursor)

/-- The octets of a tag after what is already known of it; together they must not be nothing. -/
def readTagText (verbatim : Bool) (known : List Char) (cursor : Cursor) :
    Except Problem (List UInt8 × Cursor) := do
  let (found, next) ← readTagOctets verbatim [] cursor (cursor.rest.length + 1)
  if known.isEmpty && found.isEmpty then throw .tag
  return (known.tail.map Char.toUInt8 ++ found, next)

/-- A tag at its mark: a handle and a suffix. -/
def readTag (inFlow : Bool) (cursor : Cursor) : Except Problem (Token × Cursor) := do
  let finish (handle : List Char) (suffix : List UInt8) (next : Cursor) :
      Except Problem (Token × Cursor) :=
    if startsBlank next.rest || (inFlow && next.looksAt ',') then
      .ok (.tag (String.ofList handle) suffix, next)
    else .error .tag
  if cursor.peek? 1 == some '<' then
    let (text, next) ← readTagText true [] (cursor.skipMany 2)
    if next.looksAt '>' then finish [] text next.skip else throw .tag
  else
    let (handle, next) ← readTagHandle false cursor
    if 1 < handle.length && handle.getLast? == some '!' then
      let (suffix, next) ← readTagText false [] next
      finish handle suffix next
    else
      let (suffix, next) ← readTagText false handle next
      if suffix.isEmpty then finish [] [0x21] next else finish ['!'] suffix next

/-- The name after the mark of an anchor or an alias. -/
def readName (cursor : Cursor) : Except Problem (String × Cursor) :=
  let (name, next) := cursor.skip.readWhile isNameChar
  let ends := startsBlank next.rest || match next.rest with
    | c :: _ => "?:,]\x7d%@`".toList.contains c
    | [] => true
  if name.isEmpty || !ends then .error .anchor else .ok (String.ofList name, next)

/-- A directive at its mark. -/
def readDirective (cursor : Cursor) : Except Problem (Token × Cursor) := do
  let (name, next) := cursor.skip.readWhile isNameChar
  if name.isEmpty || !startsBlank next.rest then throw .directive
  let (token, next) ← match String.ofList name with
    | "YAML" => do
        let (major, next) ← readVersionNumber (next.skipWhile isSpace)
        if !next.looksAt '.' then throw .directive
        let (minor, next) ← readVersionNumber next.skip
        pure (Token.version major minor, next)
    | "TAG" => do
        let (handle, next) ← readTagHandle true (next.skipWhile isSpace)
        if !(next.rest.head?.map isSpace).getD false then throw .directive
        let (stem, next) ← readTagText true [] (next.skipWhile isSpace)
        if !startsBlank next.rest then throw .directive
        pure (Token.tagDirective (String.ofList handle) stem, next)
    | _ => throw .directive
  let next := next.skipWhile isSpace
  let next := if next.looksAt '#' then next.skipWhile (!isBreak ·) else next
  if startsBreak next.rest then return (token, next.skipBreak) else throw .directive

/-! ## One token -/

/-- The tokens at the end of a text. -/
def finish (lexer : Lexer) : Except Problem Lexer := do
  let lexer ← (lexer.closeBlocks none).dropKey
  return (lexer.allowKey false).emit .streamEnd

/-- A mark at the start of a line that concerns whole documents. -/
def readDocumentMark (lexer : Lexer) (token : Token) (stop : Cursor) : Except Problem Lexer := do
  let lexer ← (lexer.closeBlocks none).dropKey
  return (lexer.allowKey false).emit token |>.moveTo stop

/-- The start of a flow collection. -/
def openFlow (lexer : Lexer) (token : Token) : Except Problem Lexer := do
  let lexer ← lexer.saveKey
  return ({ lexer with keys := none :: lexer.keys }.allowKey true).emit token
    |>.moveTo lexer.cursor.skip

/-- The end of a flow collection. -/
def closeFlow (lexer : Lexer) (token : Token) : Except Problem Lexer := do
  let lexer ← lexer.dropKey
  let keys := if lexer.inFlow then lexer.keys.tail else lexer.keys
  return ({ lexer with keys := keys }.allowKey false).emit token |>.moveTo lexer.cursor.skip

/-- The comma of a flow collection. -/
def readFlowEntry (lexer : Lexer) : Except Problem Lexer := do
  let lexer ← lexer.dropKey
  return (lexer.allowKey true).emit .flowEntry |>.moveTo lexer.cursor.skip

/-- The dash of an entry. -/
def readBlockEntry (lexer : Lexer) : Except Problem Lexer := do
  if !lexer.inFlow && !lexer.keyAllowed then throw .misplaced
  let lexer := lexer.openBlock lexer.cursor.column lexer.tokens.size .blockSequenceStart
  let lexer ← lexer.dropKey
  return (lexer.allowKey true).emit .blockEntry |>.moveTo lexer.cursor.skip

/-- The mark of a key. -/
def readKey (lexer : Lexer) : Except Problem Lexer := do
  if !lexer.inFlow && !lexer.keyAllowed then throw .misplaced
  let lexer := lexer.openBlock lexer.cursor.column lexer.tokens.size .blockMappingStart
  let lexer ← lexer.dropKey
  return (lexer.allowKey !lexer.inFlow).emit .key |>.moveTo lexer.cursor.skip

/-- The colon of a value, which may make a key of what stands before it. -/
def readValue (lexer : Lexer) : Except Problem Lexer := do
  match lexer.keys.head?.join with
  | some key =>
      let lexer := { lexer with
        tokens := lexer.tokens.insertIdxIfInBounds key.position Token.key }
      let lexer := lexer.openBlock key.column key.position .blockMappingStart
      return ((lexer.setKey none).allowKey false).emit .value |>.moveTo lexer.cursor.skip
  | none =>
      if !lexer.inFlow && !lexer.keyAllowed then throw .misplaced
      let lexer := lexer.openBlock lexer.cursor.column lexer.tokens.size .blockMappingStart
      return (lexer.allowKey !lexer.inFlow).emit .value |>.moveTo lexer.cursor.skip

/-- A plain scalar. -/
def readPlainScalar (lexer : Lexer) : Except Problem Lexer := do
  let lexer ← lexer.saveKey
  let indent := match lexer.indent? with
    | some indent => indent + 1
    | none => 0
  let found ← readPlain lexer.inFlow indent [] {} lexer.cursor (lexer.cursor.rest.length + 1)
  return (lexer.allowKey found.newLine).emit (.scalar (String.ofList found.text) true)
    |>.moveTo found.stop

/-- A quoted scalar. -/
def readQuotedScalar (lexer : Lexer) (single : Bool) : Except Problem Lexer := do
  let lexer ← lexer.saveKey
  let (text, stop) ← readQuoted single [] lexer.cursor.skip (lexer.cursor.rest.length + 1)
  return (lexer.allowKey false).emit (.scalar (String.ofList text) false) |>.moveTo stop

/-- A block scalar. -/
def readBlockScalar (lexer : Lexer) (literal : Bool) : Except Problem Lexer := do
  let lexer ← lexer.dropKey
  let (text, stop) ← readBlock literal lexer.indent? lexer.cursor.skip
  return (lexer.allowKey true).emit (.scalar (String.ofList text) false) |>.moveTo stop

/-- A tag, an anchor or an alias, before which a key may start. -/
def readProperty (lexer : Lexer) (read : Cursor → Except Problem (Token × Cursor)) :
    Except Problem Lexer := do
  let lexer ← lexer.saveKey
  let (token, stop) ← read lexer.cursor
  return (lexer.allowKey false).emit token |>.moveTo stop

/-- Whether a character starts a plain scalar, by what follows it. -/
def startsPlain (inFlow : Bool) (c : Char) (rest : List Char) : Bool :=
  !("-?:,[]\x7b\x7d#&*!|>'\"%@`".toList.contains c || isSpace c || isBreak c) ||
    (c == '-' && !(rest.head?.map isSpace).getD false) ||
    (!inFlow && (c == '?' || c == ':') && !startsBlank rest)

/-- Reads what starts with a character that is not a blank. -/
def readFrom (lexer : Lexer) (c : Char) (rest : List Char) : Except Problem Lexer :=
  let cursor := lexer.cursor
  if cursor.column == 0 && c == '%' then do
    let lexer ← (lexer.closeBlocks none).dropKey
    let (token, stop) ← readDirective cursor
    return (lexer.allowKey false).emit token |>.moveTo stop
  else if cursor.atDocumentMark then
    lexer.readDocumentMark (if c == '-' then .documentStart else .documentEnd) (cursor.skipMany 3)
  else if c == '[' then lexer.openFlow .flowSequenceStart
  else if c == '\x7b' then lexer.openFlow .flowMappingStart
  else if c == ']' then lexer.closeFlow .flowSequenceEnd
  else if c == '\x7d' then lexer.closeFlow .flowMappingEnd
  else if c == ',' then lexer.readFlowEntry
  else if c == '-' && startsBlank rest then lexer.readBlockEntry
  else if c == '?' && (lexer.inFlow || startsBlank rest) then lexer.readKey
  else if c == ':' && (lexer.inFlow || startsBlank rest) then lexer.readValue
  else if c == '*' then
    lexer.readProperty fun cursor => (readName cursor).map fun (name, next) => (.alias name, next)
  else if c == '&' then
    lexer.readProperty fun cursor => (readName cursor).map fun (name, next) => (.anchor name, next)
  else if c == '!' then lexer.readProperty (readTag lexer.inFlow)
  else if c == '|' && !lexer.inFlow then lexer.readBlockScalar true
  else if c == '>' && !lexer.inFlow then lexer.readBlockScalar false
  else if c == '\'' then lexer.readQuotedScalar true
  else if c == '"' then lexer.readQuotedScalar false
  else if startsPlain lexer.inFlow c rest then lexer.readPlainScalar
  else .error .unexpected

/-- Reads tokens to the end of the text. -/
def run (lexer : Lexer) (fuel : Nat) : Except Problem Lexer :=
  match fuel with
  | 0 => .error .unexpected
  | fuel + 1 => do
      let lexer := lexer.skipToToken (lexer.cursor.rest.length + 1)
      let lexer ← lexer.dropStaleKeys
      match lexer.cursor.rest with
      | [] => lexer.finish
      | c :: rest =>
          let lexer := lexer.closeBlocks (some lexer.cursor.column)
          run (← lexer.readFrom c rest) fuel

end Lexer

/-- The tokens of a text. A mark of byte order in front of it takes a column, as on any line. -/
def Token.ofText (text : String) : Except Problem (List Token) := do
  let cursor := Cursor.ofText text
  if !cursor.rest.all isAllowed then throw .character
  let lexer ← Lexer.run { cursor } (cursor.rest.length + 2)
  return lexer.tokens.toList

end Scan.Yaml
