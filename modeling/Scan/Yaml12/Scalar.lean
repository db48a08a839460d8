import Scan.Yaml.Scalar
import Scan.Yaml12.Place

/-!
# YAML 1.2 scalars

Scalars as in version 1.1, with stricter rules for where they stand: every line of a scalar has to
be indented, a tab does not indent, and a closing quote ends its line or is followed by a mark.
`indent` is the indentation of the collections around a scalar, -1 outside of all.
-/

namespace Scan.Yaml12

open Yaml (Problem Breaks Gap Chomping isSpace)

/-- The ends of lines of a gap with one more. After blanks alone it is one of the others. -/
def addBreak (breaks : Option Breaks) (fresh : Bool) : Breaks :=
  match breaks with
  | none => { first := ['\n'] }
  | some breaks =>
      if fresh then { breaks with others := breaks.others ++ ['\n'] }
      else { breaks with first := breaks.first ++ ['\n'] }

/-! ## Plain scalars -/

/-- The beginning of some characters that is a word of a plain scalar. -/
def plainWord (inFlow : Bool) : List Char → List Char
  | [] => []
  | c :: rest =>
      let ends := isSpace c || isBreak c || (c == ':' && startsBlank rest) ||
        (inFlow && ((c == ':' && startsFlowMark rest) || isFlowMark c))
      if ends then [] else c :: plainWord inFlow rest

/-- Reads what stands between two words of a plain scalar. A line that starts with a tab to the left
of `column` has to be empty otherwise. -/
def readPlainGap (column : Int) (gap : Gap) (place : Place) (fuel : Nat) :
    Except Problem (Gap × Place) :=
  match fuel, place.rest with
  | fuel + 1, c :: _ =>
      if isSpace c then
        if !place.fresh then
          readPlainGap column { gap with blanks := gap.blanks ++ [c] } (place.skipBlanks 1) fuel
        else if c == '\t' && (place.column : Int) < column then do
          let (_, next) ← place.skipToContent
          if startsBreak next.rest then readPlainGap column gap next fuel else throw .tab
        else readPlainGap column gap (place.skipBlanks 1) fuel
      else if isBreak c then
        readPlainGap column { blanks := [], breaks := addBreak gap.breaks place.fresh }
          place.skipBreak fuel
      else .ok (gap, place)
  | _, _ => .ok (gap, place)

/-- Reads the words of a plain scalar; `gap` is what stands before the next one. -/
def readPlainWords (inFlow : Bool) (indent : Int) (text : List Char) (gap : Gap) (place : Place)
    (fuel : Nat) : Except Problem (List Char × Place) :=
  match fuel with
  | 0 => .ok (text, place)
  | fuel + 1 =>
      let marked := startsDocument place.rest || endsDocument place.rest
      if (place.fresh && marked) || place.looksAt '#' then .ok (text, place)
      else if inFlow && place.looksAt '-' && startsFlowMark place.rest.tail then .error .unexpected
      else do
        let word := plainWord inFlow place.rest
        let next := place.skip word.length
        let text := if word.isEmpty then text else text ++ gap.text ++ word
        if next.atEnd || !startsBlank next.rest then return (text, next)
        let gap := if word.isEmpty then gap else {}
        let (gap, next) ← readPlainGap (indent + 1) gap next (next.rest.length + 1)
        if !inFlow && (next.column : Int) ≤ indent then return (text, next)
        readPlainWords inFlow indent text gap next fuel

/-- Reads a plain scalar. In a flow collection it must not stand to the left of its place. -/
def readPlain (inFlow : Bool) (indent : Int) (place : Place) :
    Except Problem (List Char × Place) :=
  if inFlow && (place.column : Int) ≤ indent then .error .misplaced
  else readPlainWords inFlow indent [] {} place (place.rest.length + 1)

/-! ## Quoted scalars -/

/-- A word of a quoted scalar, gathered in reverse: it ends at a blank, at the closing quote, or
after an escaped end of line, in which case `true` comes with it. -/
def readQuotedWord (single : Bool) (gathered : List Char) (place : Place) (fuel : Nat) :
    Except Problem (List Char × Bool × Place) :=
  match fuel, place.rest with
  | fuel + 1, c :: rest =>
      if startsBlank place.rest then .ok (gathered.reverse, false, place)
      else if single then
        if c == '\'' then
          if rest.head? == some '\'' then
            readQuotedWord single ('\'' :: gathered) (place.skip 2) fuel
          else .ok (gathered.reverse, false, place)
        else readQuotedWord single (c :: gathered) (place.skip 1) fuel
      else if c == '"' then .ok (gathered.reverse, false, place)
      else if c == '\\' then
        if !rest.isEmpty && startsBreak rest then
          .ok (gathered.reverse, true, (place.skip 1).skipBreak)
        else
          match Yaml.readEscape rest with
          | some (found, count) =>
              readQuotedWord single (found :: gathered) (place.skip (count + 1)) fuel
          | none => .error .escape
      else readQuotedWord single (c :: gathered) (place.skip 1) fuel
  | _, _ => .ok (gathered.reverse, false, place)

/-- Reads what stands between two words of a quoted scalar. A tab does not indent a line. -/
def readQuotedGap (indent : Int) (gap : Gap) (place : Place) (fuel : Nat) :
    Except Problem (Gap × Place) :=
  match fuel, place.rest with
  | fuel + 1, c :: _ =>
      if isSpace c then
        if gap.breaks.isNone then
          readQuotedGap indent { gap with blanks := gap.blanks ++ [c] } (place.skipBlanks 1) fuel
        else if c == '\t' && (place.column : Int) < indent then .error .tab
        else readQuotedGap indent gap (place.skipBlanks 1) fuel
      else if isBreak c then
        readQuotedGap indent { blanks := [], breaks := addBreak gap.breaks true }
          place.skipBreak fuel
      else .ok (gap, place)
  | _, _ => .ok (gap, place)

/-- Reads the words of a quoted scalar and the closing quote. -/
def readQuotedWords (single : Bool) (indent : Int) (text : List Char) (place : Place)
    (fuel : Nat) : Except Problem (List Char × Place) :=
  match fuel with
  | 0 => .error .unterminated
  | fuel + 1 =>
      let marked := startsDocument place.rest || endsDocument place.rest
      if (place.column == 0 && marked) || place.atEnd then .error .unterminated
      else if (place.column : Int) < indent then .error .misplaced
      else do
        let (word, escaped, next) ← readQuotedWord single [] place (place.rest.length + 1)
        let text := text ++ word
        if next.looksAt (if single then '\'' else '"') then return (text, next.skip 1)
        let start : Gap := if escaped then { breaks := some {} } else {}
        let (gap, next) ← readQuotedGap indent start next (next.rest.length + 1)
        readQuotedWords single indent (text ++ gap.text) next fuel

/-- Reads a quoted scalar from its opening quote. After it only blanks and a comment may stand on
the line, or a mark: a colon, if the scalar can be a key, and in a flow collection what ends an
item. -/
def readQuoted (single inFlow : Bool) (indent : Int) (place : Place) :
    Except Problem (List Char × Place) := do
  let (text, next) ← readQuotedWords single indent [] (place.skip 1) (place.rest.length + 1)
  let (_, next) ← next.skipToContent
  let ends := match next.rest with
    | ':' :: _ => inFlow || next.line == place.line
    | ',' :: _ | ']' :: _ | '\x7d' :: _ => inFlow
    | rest => startsBreak rest
  if ends then return (text, next) else throw .unexpected

/-! ## Block scalars -/

/-- Reads the indentation of the next line of a block, up to a column, and the empty lines before
it. -/
def readIndentation (column : Nat) (breaks : List Char) (place : Place) (fuel : Nat) :
    List Char × Place :=
  let spaces := ((place.rest.take (column - place.column)).takeWhile (· == ' ')).length
  let next := place.skipBlanks spaces
  match fuel, next.rest with
  | fuel + 1, c :: _ =>
      if isBreak c then readIndentation column (breaks ++ ['\n']) next.skipBreak fuel
      else (breaks, next)
  | _, _ => (breaks, next)

/-- Reads the indentation of the first line of a block and the empty lines before it, and finds the
widest of these lines. -/
def readFirstIndentation (widest : Nat) (breaks : List Char) (place : Place) (fuel : Nat) :
    Nat × List Char × Place :=
  let next := place.skipBlanks (place.rest.takeWhile (· == ' ')).length
  let widest := max widest next.column
  match fuel, next.rest with
  | fuel + 1, c :: _ =>
      if isBreak c then readFirstIndentation widest (breaks ++ ['\n']) next.skipBreak fuel
      else (widest, breaks, next)
  | _, _ => (widest, breaks, next)

/-- Reads the lines of a block at a column. -/
def readBlockLines (literal : Bool) (column : Nat) (block : Yaml.BlockText) (place : Place)
    (fuel : Nat) : Yaml.BlockText × Place :=
  match fuel with
  | 0 => (block, place)
  | fuel + 1 =>
      if place.column != column || place.atEnd || (column == 0 && endsDocument place.rest) then
        (block, place)
      else
        let indented := (place.rest.head?.map isSpace).getD false
        let folds := !literal && !block.leading.isEmpty && !block.indented && !indented
        let joined :=
          if folds then if block.trailing.isEmpty then [' '] else []
          else block.leading
        let (line, next) := place.readWhile (!isBreak ·)
        let text := block.text ++ joined ++ block.trailing ++ line
        if next.atEnd then ({ text, indented }, next)
        else
          let (trailing, next) := readIndentation column [] next.skipBreak next.rest.length
          readBlockLines literal column { text, leading := ['\n'], indented, trailing } next fuel

/-- Reads a block scalar from its opening mark. -/
def readBlock (literal : Bool) (indent : Int) (place : Place) :
    Except Problem (List Char × Place) := do
  let (chomping, depth, count) ← Yaml.blockHeader place.rest.tail
  let (_, next) ← (place.skip (count + 1)).skipToContent
  if !startsBreak next.rest then throw .blockHeader
  let next := next.skipBreak
  if next.looksAt '\t' then throw .tab
  let fuel := next.rest.length + 1
  let (column, trailing, next) := match depth with
    | some depth =>
        let column := (max indent 0).toNat + depth
        (column, readIndentation column [] next fuel)
    | none =>
        let (widest, trailing, next) := readFirstIndentation 0 [] next fuel
        (max widest (indent + 1).toNat, trailing, next)
  if next.atEnd then
    let left := next.line != place.line
    return (match chomping with
      | .strip => []
      | .clip => if left then ['\n'] else []
      | .keep => if !left then [] else if trailing.isEmpty then ['\n'] else trailing, next)
  if next.column < column && indent < (next.column : Int) then throw .misplaced
  let (block, next) := readBlockLines literal column { trailing } next fuel
  let added := if next.atEnd && max column 1 ≤ next.column then ['\n'] else []
  return (block.text ++
    match chomping with
    | .strip => []
    | .clip => block.leading ++ added
    | .keep => block.leading ++ added ++ block.trailing, next)

end Scan.Yaml12
