import Scan.Text.Hex
import Scan.Yaml.Cursor

/-!
# YAML scalars

A scalar stands plain, in quotes, or as a block. In each form the ends of lines inside it are
folded: one end of line becomes a space, and of several the first is dropped; a literal block keeps
them all.
-/

namespace Scan.Yaml

open Text (hexDigit? readCode)

/-- Ends of lines that have been read but not yet written: the first one, and those after it. -/
structure Breaks where
  first : List Char := []
  others : List Char := []
  deriving Repr

/-- Ends of lines as they are written into a scalar. -/
def Breaks.folded (breaks : Breaks) : List Char :=
  if breaks.first.head? == some '\n' then
    if breaks.others.isEmpty then [' '] else breaks.others
  else breaks.first ++ breaks.others

/-! ## Spaces and ends of lines between words -/

/-- What stands between two words of a scalar over several lines. -/
structure Gap where
  /-- Blanks on the line of the word before. -/
  blanks : List Char := []
  /-- The ends of lines, if the line was left. -/
  breaks : Option Breaks := none
  deriving Repr

/-- What a gap contributes to the text. -/
def Gap.text (gap : Gap) : List Char :=
  match gap.breaks with
  | some breaks => breaks.folded
  | none => gap.blanks

/-- Reads a gap. A tab in the indentation, to the left of `indent`, is a fault. -/
def readGap (indent : Nat) (gap : Gap) (cursor : Cursor) (fuel : Nat) :
    Except Problem (Gap × Cursor) :=
  match fuel, cursor.rest with
  | fuel + 1, c :: _ =>
      if isSpace c then
        match gap.breaks with
        | some _ =>
            if c == '\t' && cursor.column < indent then .error .tab
            else readGap indent gap cursor.skip fuel
        | none => readGap indent { gap with blanks := gap.blanks ++ [c] } cursor.skip fuel
      else if isBreak c then
        let (found, next) := cursor.readBreak
        let breaks : Breaks := match gap.breaks with
          | some breaks => { breaks with others := breaks.others ++ found }
          | none => { first := found }
        readGap indent { blanks := [], breaks := some breaks } next fuel
      else .ok (gap, cursor)
  | _, _ => .ok (gap, cursor)

/-! ## Plain scalars -/

/-- Whether a plain scalar ends here, between two characters of a word. -/
def endsPlain (inFlow : Bool) : List Char → Bool
  | [] => true
  | c :: rest =>
      (c == ':' && startsBlank rest) ||
        (inFlow && (c == ',' || c == '[' || c == ']' || c == '\x7b' || c == '\x7d'))

/-- Whether a colon stands where a flow collection has no place for it. -/
def hasStrayColon (inFlow : Bool) : List Char → Bool
  | ':' :: c :: _ =>
      inFlow &&
        (c == ',' || c == '?' || c == '[' || c == ']' || c == '\x7b' || c == '\x7d')
  | _ => false

/-- Reads the characters of a word of a plain scalar, gathered in reverse. -/
def readPlainWord (inFlow : Bool) (gathered : List Char) (cursor : Cursor) (fuel : Nat) :
    Except Problem (List Char × Cursor) :=
  match fuel, cursor.rest with
  | fuel + 1, c :: _ =>
      if startsBlank cursor.rest then .ok (gathered.reverse, cursor)
      else if hasStrayColon inFlow cursor.rest then .error .unexpected
      else if endsPlain inFlow cursor.rest then .ok (gathered.reverse, cursor)
      else readPlainWord inFlow (c :: gathered) cursor.skip fuel
  | _, _ => .ok (gathered.reverse, cursor)

/-- A plain scalar: its text, the place after it, and whether that is on another line. -/
structure PlainScalar where
  text : List Char
  stop : Cursor
  newLine : Bool

/-- Reads the words of a plain scalar; `gap` is what stands before the next one. -/
def readPlain (inFlow : Bool) (indent : Nat) (text : List Char) (gap : Gap) (cursor : Cursor)
    (fuel : Nat) : Except Problem PlainScalar :=
  let finished : PlainScalar := ⟨text, cursor, gap.breaks.isSome⟩
  match fuel with
  | 0 => .ok finished
  | fuel + 1 =>
      if cursor.atDocumentMark || cursor.looksAt '#' then .ok finished
      else do
        let (word, next) ← readPlainWord inFlow [] cursor (cursor.rest.length + 1)
        let text := if word.isEmpty then text else text ++ gap.text ++ word
        let gap := if word.isEmpty then gap else {}
        if next.atEnd || !startsBlank next.rest then
          return ⟨text, next, gap.breaks.isSome⟩
        let (gap, next) ← readGap indent gap next (next.rest.length + 1)
        if !inFlow && next.column < indent then return ⟨text, next, gap.breaks.isSome⟩
        readPlain inFlow indent text gap next fuel

/-! ## Quoted scalars -/

/-- The character of an escape of one letter. -/
def letterEscape? (c : Char) : Option Char :=
  match c with
  | '0' => some (Char.ofNat 0)
  | 'a' => some (Char.ofNat 7)
  | 'b' => some (Char.ofNat 8)
  | 't' | '\t' => some '\t'
  | 'n' => some '\n'
  | 'v' => some (Char.ofNat 11)
  | 'f' => some (Char.ofNat 12)
  | 'r' => some '\r'
  | 'e' => some (Char.ofNat 27)
  | ' ' => some ' '
  | '"' => some '"'
  | '/' => some '/'
  | '\\' => some '\\'
  | 'N' => some (Char.ofNat 0x85)
  | '_' => some (Char.ofNat 0xA0)
  | 'L' => some (Char.ofNat 0x2028)
  | 'P' => some (Char.ofNat 0x2029)
  | _ => none

/-- The character of an escape after its backslash, and the number of characters it takes. -/
def readEscape : List Char → Option (Char × Nat)
  | 'x' :: rest => (readCode 2 rest).map fun c => (c, 3)
  | 'u' :: rest => (readCode 4 rest).map fun c => (c, 5)
  | 'U' :: rest => (readCode 8 rest).map fun c => (c, 9)
  | c :: _ => (letterEscape? c).map fun c => (c, 1)
  | [] => none

/-- A word of a quoted scalar, gathered in reverse: it ends at a blank, at the closing quote, or
after an escaped end of line, in which case `true` comes with it. -/
def readQuotedWord (single : Bool) (gathered : List Char) (cursor : Cursor) (fuel : Nat) :
    Except Problem (List Char × Bool × Cursor) :=
  match fuel, cursor.rest with
  | fuel + 1, c :: rest =>
      if startsBlank cursor.rest then .ok (gathered.reverse, false, cursor)
      else if single then
        if c == '\'' then
          if rest.head? == some '\'' then
            readQuotedWord single ('\'' :: gathered) (cursor.skipMany 2) fuel
          else .ok (gathered.reverse, false, cursor)
        else readQuotedWord single (c :: gathered) cursor.skip fuel
      else if c == '"' then .ok (gathered.reverse, false, cursor)
      else if c == '\\' then
        match rest with
        | [] => .error .escape
        | mark :: _ =>
            if isBreak mark then .ok (gathered.reverse, true, cursor.skip.skipBreak)
            else
              match readEscape rest with
              | some (found, count) =>
                  readQuotedWord single (found :: gathered) (cursor.skipMany (count + 1)) fuel
              | none => .error .escape
      else readQuotedWord single (c :: gathered) cursor.skip fuel
  | _, _ => .ok (gathered.reverse, false, cursor)

/-- Reads a quoted scalar from the place after its opening quote. -/
def readQuoted (single : Bool) (text : List Char) (cursor : Cursor) (fuel : Nat) :
    Except Problem (List Char × Cursor) :=
  match fuel with
  | 0 => .error .unterminated
  | fuel + 1 =>
      if cursor.atDocumentMark || cursor.atEnd then .error .unterminated
      else do
        let (word, escaped, next) ← readQuotedWord single [] cursor (cursor.rest.length + 1)
        let text := text ++ word
        if next.looksAt (if single then '\'' else '"') then return (text, next.skip)
        let start : Gap := if escaped then { breaks := some {} } else {}
        let (gap, next) ← readGap 0 start next (next.rest.length + 1)
        readQuoted single (text ++ gap.text) next fuel

/-! ## Block scalars -/

/-- How the ends of lines at the end of a block are treated. -/
inductive Chomping where
  | strip
  | clip
  | keep
  deriving BEq, DecidableEq, Repr

/-- The mark of a treatment. -/
def chomping? (c : Char) : Option Chomping :=
  if c == '+' then some .keep else if c == '-' then some .strip else none

/-- The depth of indentation in a header, which is not zero, and the number of its digits. -/
def blockDepth : List Char → Except Problem (Option Nat × Nat)
  | '0' :: _ => .error .blockHeader
  | c :: _ => .ok (if c.isDigit then (some (c.toNat - '0'.toNat), 1) else (none, 0))
  | [] => .ok (none, 0)

/-- The header of a block after its opening mark: a treatment and a depth of indentation, each of
which may be missing, in any order. The number of its characters comes with it. -/
def blockHeader (chars : List Char) : Except Problem (Chomping × Option Nat × Nat) := do
  match chars.head?.bind chomping? with
  | some chomping =>
      let (depth, count) ← blockDepth chars.tail
      return (chomping, depth, count + 1)
  | none =>
      let (depth, count) ← blockDepth chars
      match depth, (chars.drop count).head?.bind chomping? with
      | some _, some chomping => return (chomping, depth, count + 1)
      | _, _ => return (.clip, depth, count)

/-- Reads the indentation of the next line of a block and the empty lines before it. Without a
known indentation every space counts, and `widest` is the widest line so far. -/
def readBlockBreaks (indent : Option Nat) (widest : Nat) (breaks : List Char) (cursor : Cursor)
    (fuel : Nat) : Except Problem (Nat × List Char × Cursor) :=
  let inside (column : Nat) : Bool := match indent with
    | some indent => column < indent
    | none => true
  let room := match indent with
    | some indent => indent - cursor.column
    | none => cursor.rest.length
  let next := cursor.skipMany ((cursor.rest.take room).takeWhile (· == ' ')).length
  let widest := max widest next.column
  if inside next.column && next.looksAt '\t' then .error .tab
  else
    match fuel, next.rest with
    | fuel + 1, c :: _ =>
        if isBreak c then
          let (found, after) := next.readBreak
          readBlockBreaks indent widest (breaks ++ found) after fuel
        else .ok (widest, breaks, next)
    | _, _ => .ok (widest, breaks, next)

/-- The text of a block that has been read, without the ends of lines at its end. -/
structure BlockText where
  text : List Char := []
  /-- The end of the last line. -/
  leading : List Char := []
  /-- Whether the last line began with a blank. -/
  indented : Bool := false
  /-- The empty lines after it. -/
  trailing : List Char := []

/-- Reads the lines of a block at a fixed indentation. -/
def readBlockLines (literal : Bool) (indent : Nat) (block : BlockText) (cursor : Cursor)
    (fuel : Nat) : Except Problem (BlockText × Cursor) :=
  match fuel with
  | 0 => .ok (block, cursor)
  | fuel + 1 =>
      if cursor.column != indent || cursor.atEnd then .ok (block, cursor)
      else do
        let indented := (cursor.rest.head?.map isSpace).getD false
        let folds := !literal && block.leading.head? == some '\n' && !block.indented && !indented
        let joined :=
          if folds then if block.trailing.isEmpty then [' '] else []
          else block.leading
        let (line, next) := cursor.readWhile (!isBreak ·)
        let (leading, next) := next.readBreak
        let (_, trailing, next) ←
          readBlockBreaks (some indent) 0 [] next (next.rest.length + 1)
        readBlockLines literal indent
          { text := block.text ++ joined ++ block.trailing ++ line, leading, indented, trailing }
          next fuel

/-- Reads a block scalar from the place after its opening mark. `parent` is the indentation of the
collection that it stands in, if there is one. -/
def readBlock (literal : Bool) (parent : Option Nat) (cursor : Cursor) :
    Except Problem (List Char × Cursor) := do
  let (chomping, depth, count) ← blockHeader cursor.rest
  let cursor := (cursor.skipMany count).skipWhile isSpace
  let cursor := if cursor.looksAt '#' then cursor.skipWhile (!isBreak ·) else cursor
  if !startsBreak cursor.rest then throw .blockHeader
  let cursor := cursor.skipBreak
  let known := depth.map fun depth => (parent.getD 0) + depth
  let (widest, trailing, cursor) ←
    readBlockBreaks known 0 [] cursor (cursor.rest.length + 1)
  let least := match parent with
    | some parent => parent + 1
    | none => 1
  let indent := known.getD (max widest (max least 1))
  let (block, cursor) ←
    readBlockLines literal indent { trailing } cursor (cursor.rest.length + 1)
  return (block.text ++
    match chomping with
    | .strip => []
    | .clip => block.leading
    | .keep => block.leading ++ block.trailing, cursor)

end Scan.Yaml
