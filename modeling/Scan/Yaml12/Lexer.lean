import Scan.Yaml.Token.Lexer
import Scan.Yaml12.Scalar

/-!
# YAML 1.2 tokens

Text becomes tokens as in version 1.1: a key without a mark is found out by the colon after it, and
indentation opens and closes the block collections. Beyond that, the items of a block collection
indent what stands in them by one column, so that the lines of a flow collection or of a quoted text
in a block have to be indented too, and a key in a flow sequence opens a mapping of its own.
-/

namespace Scan.Yaml12

open Yaml (Problem Token KeyPlace isSpace isNameChar)

/-- An indentation that is in force. -/
structure Indent where
  /-- The one before. -/
  outer : Int
  /-- Whether it belongs to a block collection, which ends with it. -/
  isBlock : Bool
  deriving Repr

/-- The state between two tokens. -/
structure Lexer where
  place : Place
  tokens : Array Token := #[]
  /-- The indentation in force, -1 at first. -/
  indent : Int := -1
  /-- The indentations up to the one in force, that one first. -/
  indents : List Indent := []
  /-- One entry for each flow collection around this place and one for the block, innermost first:
  where its current key may have started. -/
  keys : List (Option KeyPlace) := [none]
  /-- Whether a key without a mark may start here. -/
  keyAllowed : Bool := true
  /-- Where a value may follow its colon without a blank, since its key shows where it ends. -/
  adjacent : Nat := 0
  /-- Whether the keys of the innermost flow collection are marked as such. -/
  keysMarked : Bool := false
  /-- One entry for each flow sequence around this place, innermost first: whether a mapping of one
  entry is open in it. -/
  pairs : List Bool := []

namespace Lexer

/-- Whether the place is inside a flow collection. -/
def inFlow (lexer : Lexer) : Bool :=
  1 < lexer.keys.length

/-- The lexer after a token of its own. -/
def emit (lexer : Lexer) (token : Token) : Lexer :=
  { lexer with tokens := lexer.tokens.push token }

/-- Moves the place. -/
def moveTo (lexer : Lexer) (place : Place) : Lexer :=
  { lexer with place := place }

/-- Sets whether a key may start here. -/
def allowKey (lexer : Lexer) (allowed : Bool) : Lexer :=
  { lexer with keyAllowed := allowed }

/-- The place where the current key may have started. -/
def key? (lexer : Lexer) : Option KeyPlace :=
  lexer.keys.head?.join

/-- Sets where the current key may have started. -/
def setKey (lexer : Lexer) (key : Option KeyPlace) : Lexer :=
  { lexer with keys := key :: lexer.keys.tail }

/-- Puts a token among those that are there. -/
def insert (lexer : Lexer) (position : Nat) (token : Token) : Lexer :=
  { lexer with tokens := lexer.tokens.insertIdxIfInBounds position token }

/-! ## Keys -/

/-- Whether the indentation in force belongs to a block collection. -/
def inBlock (lexer : Lexer) : Bool :=
  (lexer.indents.head?.map Indent.isBlock).getD false

/-- Remembers that a key may start here. At the indentation of a block collection nothing else may
stand. -/
def saveKey (lexer : Lexer) : Lexer :=
  if lexer.keyAllowed then
    let place := lexer.place
    let required := !lexer.inFlow && lexer.indent == (place.column : Int) && lexer.inBlock
    lexer.setKey (some
      { position := lexer.tokens.size, required, index := place.index, line := place.line
        column := place.column })
  else lexer

/-- Gives up the current key, which must not be a required one. -/
def dropKey (lexer : Lexer) : Except Problem Lexer :=
  if (lexer.key?.map KeyPlace.required).getD false then .error .missingColon
  else .ok (lexer.setKey none)

/-- The longest key without a mark in a block, in characters. -/
def maxKeyLength : Nat := 1024

/-- In a block, forgets the current key if it is on another line or too far back. In a flow
collection a key may be of any length. -/
def dropStaleKey (lexer : Lexer) : Except Problem Lexer :=
  match lexer.key? with
  | some key =>
      let isStale := key.line < lexer.place.line || key.index + maxKeyLength < lexer.place.index
      if !lexer.inFlow && isStale then lexer.dropKey else .ok lexer
  | none => .ok lexer

/-! ## Indentation -/

/-- In a block collection, indents what follows by one column. -/
def indentByOne (lexer : Lexer) : Lexer :=
  if !lexer.inFlow && lexer.inBlock then
    { lexer with indents := ⟨lexer.indent, false⟩ :: lexer.indents, indent := lexer.indent + 1 }
  else lexer

/-- Takes back an indentation that belongs to no block collection, if it is in force. -/
def unindentItem (lexer : Lexer) : Lexer :=
  match lexer.indents with
  | ⟨outer, false⟩ :: rest => { lexer with indent := outer, indents := rest }
  | _ => lexer

/-- Takes back all indentations down to that of a block collection. -/
def unindentItems (lexer : Lexer) (fuel : Nat) : Lexer :=
  match fuel, lexer.indents with
  | fuel + 1, ⟨outer, false⟩ :: rest =>
      unindentItems { lexer with indent := outer, indents := rest } fuel
  | _, _ => lexer

/-- Opens a block collection at a column, unless one is open there; its start goes to a position
among the tokens. -/
def openBlock (lexer : Lexer) (column position : Nat) (token : Token) : Lexer :=
  if lexer.inFlow then lexer
  else
    let lexer := if lexer.indent ≤ column then lexer.unindentItem else lexer
    if lexer.indent < column then
      { lexer.insert position token with
        indents := ⟨lexer.indent, true⟩ :: lexer.indents, indent := column }
    else lexer

/-- Takes back the indentations to the right of a column; the block collections among them end. -/
def closeBlocks (lexer : Lexer) (column : Int) (fuel : Nat) : Lexer :=
  match fuel, lexer.indents with
  | fuel + 1, ⟨outer, isBlock⟩ :: rest =>
      if !lexer.inFlow && column < lexer.indent then
        let lexer := { lexer with indent := outer, indents := rest }
        closeBlocks (if isBlock then lexer.emit .blockEnd else lexer) column fuel
      else lexer
  | _, _ => lexer

/-- Ends all block collections. -/
def closeAll (lexer : Lexer) : Lexer :=
  lexer.closeBlocks (-1) (lexer.indents.length + 1)

/-! ## Blanks -/

/-- Goes to the next token, over blanks, comments and ends of lines. A key may start on every new
line of a block. A line of a block that starts with a tab has to be empty otherwise. -/
def skipToToken (lexer : Lexer) (fuel : Nat) : Except Problem Lexer :=
  match fuel, lexer.place.rest with
  | fuel + 1, c :: _ =>
      let place := lexer.place
      let indents := !lexer.indents.isEmpty && place.fresh && (place.column : Int) < lexer.indent
      if c == '\t' && indents then do
        let (_, next) ← place.skipToContent
        if startsBreak next.rest then skipToToken (lexer.moveTo next) fuel else throw .tab
      else if isSpace c then skipToToken (lexer.moveTo (place.skipBlanks 1)) fuel
      else if isBreak c then
        let lexer := lexer.moveTo place.skipBreak
        skipToToken (lexer.allowKey (lexer.keyAllowed || !lexer.inFlow)) fuel
      else if c == '#' then skipToToken (lexer.moveTo place.skipLine) fuel
      else .ok lexer
  | _, _ => .ok lexer

/-- Goes over what stands after the mark of a key: spaces, ends of lines and comments, but no tabs.
There has to be a space or the end of a line. -/
def skipAfterKey (lexer : Lexer) (found : Bool) (fuel : Nat) : Except Problem Lexer :=
  match fuel, lexer.place.rest with
  | fuel + 1, c :: _ =>
      let place := lexer.place
      if c == ' ' then skipAfterKey (lexer.moveTo (place.skipBlanks 1)) true fuel
      else if isBreak c then
        let lexer := lexer.moveTo place.skipBreak
        skipAfterKey (lexer.allowKey (lexer.keyAllowed || !lexer.inFlow)) true fuel
      else if c == '#' then skipAfterKey (lexer.moveTo place.skipLine) found fuel
      else if !found then .error .misplaced
      else if c == '\t' then .error .tab
      else .ok lexer
  | _, _ => if found then .ok lexer else .error .misplaced

/-! ## Directives, names and tags -/

/-- Whether a character may stand in a name of a node. -/
def isAnchorChar (c : Char) : Bool :=
  !isSpace c && !isBreak c && !isFlowMark c && c.toNat != 0xFEFF

/-- Whether a character may stand in a tag that is written out in full. -/
def isUriChar (c : Char) : Bool :=
  isNameChar c || "#;/?:@&=+$,.!~*'()[]%".toList.contains c

/-- Whether a character may stand in a tag after its handle. -/
def isTagChar (c : Char) : Bool :=
  isUriChar c && !isFlowMark c && c != '!'

/-- Escaped octets that belong together: they are put one after another to the code of a
character. -/
def readEscapes (count code : Nat) (chars : List Char) : Option Nat :=
  match count with
  | 0 => some code
  | count + 1 =>
      match Yaml.Lexer.readTagOctet chars with
      | some octet =>
          if octet &&& 0xC0 == 0x80 then
            readEscapes count (0x100 * code + octet.toNat) (chars.drop 3)
          else none
      | none => none

/-- The character that escapes in a tag stand for, and the number of characters of these. -/
def readUriEscape (chars : List Char) : Option (Char × Nat) := do
  let first ← Yaml.Lexer.readTagOctet chars
  let length ← Yaml.Lexer.sequenceLength first
  let code ← readEscapes (length - 1) first.toNat (chars.drop 3)
  return (← Text.charOfCode? code, 3 * length)

/-- The characters of a tag that satisfy a test, gathered in reverse. -/
def readUri (test : Char → Bool) (gathered : List Char) (place : Place) (fuel : Nat) :
    Except Problem (List Char × Place) :=
  match fuel, place.rest with
  | fuel + 1, c :: _ =>
      if !test c then .ok (gathered.reverse, place)
      else if c == '%' then
        match readUriEscape place.rest with
        | some (found, count) => readUri test (found :: gathered) (place.skip count) fuel
        | none => .error .tag
      else readUri test (c :: gathered) (place.skip 1) fuel
  | _, _ => .ok (gathered.reverse, place)

/-- The handle of a tag, with the mark at its start and, except in a short one, at its end. -/
def readTagHandle (inDirective : Bool) (place : Place) : Except Problem (List Char × Place) :=
  if !place.looksAt '!' then .error .tag
  else
    let (name, next) := (place.skip 1).readWhile isNameChar
    if next.looksAt '!' then .ok ('!' :: name ++ ['!'], next.skip 1)
    else if inDirective && !name.isEmpty then .error .tag
    else .ok ('!' :: name, next)

/-- The octets of some characters. -/
def octets (chars : List Char) : List UInt8 :=
  (String.ofList chars).toUTF8.toList

/-- A tag at its mark: a handle and a suffix. -/
def readTag (inFlow : Bool) (place : Place) : Except Problem (Token × Place) := do
  let fuel := place.rest.length + 1
  let (handle, suffix, next) ←
    if place.rest.tail.head? == some '<' then do
      let (text, next) ← readUri isUriChar [] (place.skip 2) fuel
      if next.looksAt '>' then pure ([], text, next.skip 1) else throw .tag
    else do
      let (handle, next) ← readTagHandle false place
      let (suffix, next) ← readUri isTagChar [] next fuel
      if 1 < handle.length && handle.getLast? == some '!' then
        if suffix.isEmpty then throw .tag else pure (handle, suffix, next)
      else
        let suffix := handle.tail ++ suffix
        if suffix.isEmpty then pure ([], ['!'], next) else pure (['!'], suffix, next)
  if startsBlank next.rest || (inFlow && startsFlowMark next.rest) then
    return (.tag (String.ofList handle) (octets suffix), next)
  else throw .tag

/-- The name after the mark of an anchor or an alias. -/
def readName (place : Place) : Except Problem (String × Place) :=
  let (name, next) := (place.skip 1).readWhile isAnchorChar
  if name.isEmpty then .error .anchor else .ok (String.ofList name, next)

/-- The stem that a directive gives to a handle. It starts with an exclamation mark, or as what
follows a handle. -/
def readStem (place : Place) : Except Problem (List Char × Place) :=
  let fuel := place.rest.length + 1
  match place.rest with
  | '!' :: _ => readUri isUriChar ['!'] (place.skip 1) fuel
  | c :: _ => if isTagChar c then readUri isUriChar [] place fuel else .error .tag
  | [] => .error .tag

/-- Digits of a version number. -/
def readVersionNumber (place : Place) : Except Problem (Nat × Place) :=
  let (digits, next) := place.readWhile Char.isDigit
  if digits.isEmpty || 9 < digits.length then .error .directive
  else .ok (digits.foldl (fun value digit => 10 * value + (digit.toNat - '0'.toNat)) 0, next)

/-- A directive at its mark. One with an unknown name says nothing. -/
def readDirective (place : Place) : Except Problem (Token × Place) := do
  let afterBlanks (place : Place) : Place :=
    place.skipBlanks (place.rest.takeWhile isSpace).length
  let (name, next) := (place.skip 1).readWhile isNameChar
  if name.isEmpty || !startsBlank next.rest then throw .directive
  let (token, next) ← match String.ofList name with
    | "YAML" => do
        let (major, next) ← readVersionNumber (afterBlanks next)
        if !next.looksAt '.' then throw .directive
        let (minor, next) ← readVersionNumber (next.skip 1)
        pure (Token.version major minor, next)
    | "TAG" => do
        let (handle, next) ← readTagHandle true (afterBlanks next)
        let (stem, next) ← readStem (afterBlanks next)
        if !startsBlank next.rest then throw .directive
        pure (Token.tagDirective (String.ofList handle) (octets stem), next)
    | _ => pure (Token.tagDirective "" [], next.skipLine)
  let (_, next) ← next.skipToContent
  if startsBreak next.rest then return (token, next.skipBreak) else throw .directive

/-! ## One token -/

/-- The tokens at the end of a text. No key may be required then. -/
def finish (lexer : Lexer) : Except Problem Lexer :=
  if lexer.keys.any fun key => (key.map KeyPlace.required).getD false then .error .missingColon
  else .ok (lexer.closeAll.emit .streamEnd)

/-- What concerns whole documents: block collections end before it. -/
def readDocumentToken (lexer : Lexer) (token : Token) (stop : Place) : Except Problem Lexer := do
  let lexer ← lexer.closeAll.dropKey
  return (lexer.allowKey false).emit token |>.moveTo stop

/-- The mark of the end of a document, after which only a comment may stand on the line. -/
def readDocumentEnd (lexer : Lexer) : Except Problem Lexer := do
  let (_, next) ← (lexer.place.skip 3).skipToContent
  if startsBreak next.rest then lexer.readDocumentToken .documentEnd next else throw .misplaced

/-- How many flow collections may stand in each other. -/
def maxFlowDepth : Nat := 255

/-- The start of a flow collection. -/
def openFlow (lexer : Lexer) (token : Token) : Except Problem Lexer := do
  if maxFlowDepth < lexer.keys.length then throw .misplaced
  let (_, next) ← (lexer.place.skip 1).skipToContent
  let lexer := lexer.saveKey.indentByOne
  let lexer := { lexer with keys := none :: lexer.keys }.allowKey true
  let lexer :=
    if token == .flowMappingStart then { lexer with keysMarked := true }
    else { lexer with pairs := false :: lexer.pairs }
  return lexer.emit token |>.moveTo next

/-- Ends the mapping of one entry that is open in the innermost flow sequence, if there is one. -/
def closePair (lexer : Lexer) : Lexer :=
  match lexer.pairs with
  | true :: rest =>
      { lexer with pairs := false :: rest, keysMarked := false }.emit .flowMappingEnd
  | _ => lexer

/-- The end of a flow collection. -/
def closeFlow (lexer : Lexer) (token : Token) : Except Problem Lexer := do
  let lexer ← lexer.dropKey
  let lexer := if lexer.inFlow then { lexer with keys := lexer.keys.tail } else lexer
  let lexer := lexer.allowKey false
  let lexer :=
    if token == .flowSequenceEnd then
      let closed := lexer.closePair
      { closed with pairs := closed.pairs.tail }
    else lexer
  let (_, next) ← (lexer.place.skip 1).skipToContent
  let adjacent := if lexer.inFlow then next.index else lexer.adjacent
  return { lexer with adjacent }.emit token |>.moveTo next

/-- The comma of a flow collection. -/
def readFlowEntry (lexer : Lexer) : Except Problem Lexer := do
  let lexer ← lexer.dropKey
  let (_, next) ← (lexer.place.skip 1).skipToContent
  return (lexer.allowKey true).closePair.emit .flowEntry |>.moveTo next

/-- The dash of an entry. Between two dashes on a line there may be no tab. -/
def readBlockEntry (lexer : Lexer) : Except Problem Lexer := do
  if lexer.inFlow || !lexer.keyAllowed then throw .misplaced
  let (blanks, next) ← (lexer.place.skip 1).skipToContent
  if blanks.contains '\t' && next.looksAt '-' && startsBlank next.rest.tail then throw .tab
  let lexer := lexer.openBlock lexer.place.column lexer.tokens.size .blockSequenceStart
  let empties := (!next.atEnd && startsBreak next.rest) || startsFlowMark next.rest
  let lexer ← (if empties then lexer.indentByOne else lexer).dropKey
  return (lexer.allowKey true).emit .blockEntry |>.moveTo next

/-- The mark of a key. -/
def readKey (lexer : Lexer) : Except Problem Lexer := do
  if !lexer.inFlow && !lexer.keyAllowed then throw .misplaced
  let lexer := lexer.openBlock lexer.place.column lexer.tokens.size .blockMappingStart
  let lexer := { lexer with keysMarked := lexer.keysMarked || lexer.inFlow }
  let lexer := (← lexer.dropKey).allowKey !lexer.inFlow
  let lexer ← (lexer.moveTo (lexer.place.skip 1)).skipAfterKey false lexer.place.rest.length
  return lexer.emit .key

/-- The place after the colon of a value. A value after a tab has to be set off by a space too, if
it starts with a letter, a digit, a low line or a dash. -/
def readColon (place : Place) : Except Problem Place := do
  let next := place.skip 1
  if !next.looksAt '\t' then return next
  let (blanks, after) ← next.skipToContent
  let looksBad := match after.rest with
    | c :: _ => isNameChar c
    | [] => false
  if !blanks.contains ' ' && looksBad then throw .tab else return after

/-- The colon of a value, which may make a key of what stands before it. In a flow sequence without
marked keys it opens a mapping of one entry. -/
def readValue (lexer : Lexer) : Except Problem Lexer := do
  let opensPair := !lexer.pairs.isEmpty && !lexer.keysMarked
  let start := lexer.place
  let next ← readColon start
  let lexer := if opensPair then { lexer with pairs := true :: lexer.pairs.tail } else lexer
  let lexer := lexer.moveTo next
  match lexer.key? with
  | some key =>
      if opensPair && key.line < start.line then throw .misplaced
      let lexer := lexer.insert key.position .key
      let lexer := if opensPair then lexer.insert key.position .flowMappingStart else lexer
      let lexer := (lexer.openBlock key.column key.position .blockMappingStart).indentByOne
      return ((lexer.setKey none).allowKey false).emit .value
  | none =>
      let lexer := if opensPair then lexer.emit .flowMappingStart else lexer
      if !lexer.inFlow && !lexer.keyAllowed then throw .misplaced
      let lexer := lexer.openBlock start.column lexer.tokens.size .blockMappingStart
      return (lexer.indentByOne.allowKey !lexer.inFlow).emit .value

/-- A plain scalar. After one that ends on another line a key may start. -/
def readPlainScalar (lexer : Lexer) : Except Problem Lexer := do
  let lexer := lexer.saveKey
  let lexer := (lexer.unindentItems lexer.indents.length).allowKey false
  let (text, stop) ← readPlain lexer.inFlow lexer.indent lexer.place
  return (lexer.allowKey stop.fresh).emit (.scalar (String.ofList text) true) |>.moveTo stop

/-- A quoted scalar. -/
def readQuotedScalar (lexer : Lexer) (single : Bool) : Except Problem Lexer := do
  let lexer := lexer.saveKey.allowKey false
  let (text, stop) ← readQuoted single lexer.inFlow lexer.indent lexer.place
  let lexer ← (lexer.moveTo stop).skipToToken (stop.rest.length + 1)
  return { lexer with adjacent := lexer.place.index }.emit (.scalar (String.ofList text) false)

/-- A block scalar. -/
def readBlockScalar (lexer : Lexer) (literal : Bool) : Except Problem Lexer := do
  let lexer := lexer.saveKey.allowKey true
  let lexer := lexer.unindentItems lexer.indents.length
  let (text, stop) ← readBlock literal lexer.indent lexer.place
  return lexer.emit (.scalar (String.ofList text) false) |>.moveTo stop

/-- A tag, an anchor or an alias, before which a key may start. -/
def readProperty (lexer : Lexer) (read : Place → Except Problem (Token × Place)) :
    Except Problem Lexer := do
  let lexer := lexer.saveKey.allowKey false
  let (token, stop) ← read lexer.place
  return lexer.emit token |>.moveTo stop

/-- Whether a colon with a given rest after it is that of a value. -/
def isValueMark (lexer : Lexer) (rest : List Char) : Bool :=
  startsBlank rest ||
    (lexer.inFlow && (startsFlowMark rest || lexer.place.index == lexer.adjacent))

/-- Reads what starts with a character that is not a blank. -/
def readFrom (lexer : Lexer) (c : Char) (rest : List Char) : Except Problem Lexer := do
  let place := lexer.place
  if place.column == 0 && c == '%' then
    let (token, stop) ← readDirective place
    lexer.readDocumentToken token stop
  else if place.column == 0 && startsDocument place.rest then
    lexer.readDocumentToken .documentStart (place.skip 3)
  else if place.column == 0 && endsDocument place.rest then lexer.readDocumentEnd
  else if (place.column : Int) < lexer.indent then throw .misplaced
  else if c == '[' then lexer.openFlow .flowSequenceStart
  else if c == '\x7b' then lexer.openFlow .flowMappingStart
  else if c == ']' then lexer.closeFlow .flowSequenceEnd
  else if c == '\x7d' then lexer.closeFlow .flowMappingEnd
  else if c == ',' then lexer.readFlowEntry
  else if c == '-' && startsBlank rest then lexer.readBlockEntry
  else if c == '?' && startsBlank rest then lexer.readKey
  else if c == ':' && lexer.isValueMark rest then lexer.readValue
  else if c == '*' then
    lexer.readProperty fun place => (readName place).map fun (name, next) => (.alias name, next)
  else if c == '&' then
    lexer.readProperty fun place => (readName place).map fun (name, next) => (.anchor name, next)
  else if c == '!' then lexer.readProperty (readTag lexer.inFlow)
  else if c == '|' && !lexer.inFlow then lexer.readBlockScalar true
  else if c == '>' && !lexer.inFlow then lexer.readBlockScalar false
  else if c == '\'' then lexer.readQuotedScalar true
  else if c == '"' then lexer.readQuotedScalar false
  else if c == '%' || c == '@' || c == '`' then throw .unexpected
  else lexer.readPlainScalar

/-- Reads tokens to the end of the text. -/
def run (lexer : Lexer) (fuel : Nat) : Except Problem Lexer :=
  match fuel with
  | 0 => .error .unexpected
  | fuel + 1 => do
      let lexer ← lexer.skipToToken (lexer.place.rest.length + 1)
      let lexer ← lexer.dropStaleKey
      let lexer := lexer.closeBlocks lexer.place.column (lexer.indents.length + 1)
      match lexer.place.rest with
      | [] => lexer.finish
      | c :: rest => run (← lexer.readFrom c rest) fuel

end Lexer

/-- The tokens of a text. -/
def tokensOf (text : String) : Except Problem (List Token) := do
  let place := Place.ofText text
  let lexer ← Lexer.run { place } (place.rest.length + 2)
  return lexer.tokens.toList

end Scan.Yaml12
