import Scan.Decimal.Literal
import Scan.Json.Value
import Scan.Yaml.Node
import Scan.Yaml.Scalar

/-!
# What scalars stand for

A plain scalar without a tag stands for null, a truth value or a number if it looks like one, and
for its own text otherwise. A scalar in quotes always stands for its text, unless its tag says what
it is.
-/

namespace Scan.Yaml

open Text (hexDigit?)

/-- Why a document is not the wanted data. -/
inductive Mismatch where
  | wrongType
  | wrongValue
  | missingField (name : String)
  | duplicateField (name : String)
  /-- Collections are nested too deeply. -/
  | tooDeep
  /-- Aliases are followed far more often than the document is long. -/
  | tooManyAliases
  /-- A text that holds no document or more than one. -/
  | documentCount
  deriving BEq, DecidableEq, Repr

namespace Resolution

/-- Whether a word stands for null. -/
def isNullWord (text : String) : Bool :=
  text == "null" || text == "Null" || text == "NULL" || text == "~"

/-- The truth value that a word stands for. -/
def truth? (text : String) : Option Bool :=
  if text == "true" || text == "True" || text == "TRUE" then some true
  else if text == "false" || text == "False" || text == "FALSE" then some false
  else none

/-- The rest of a list after a beginning that it has. -/
def after? (beginning chars : List Char) : Option (List Char) :=
  if beginning.isPrefixOf chars then some (chars.drop beginning.length) else none

/-- Whether a list starts with a sign. -/
def startsSigned (chars : List Char) : Bool :=
  chars.head? == some '+' || chars.head? == some '-'

/-- The value of a non-empty list of digits in a base of at most sixteen. -/
def digits? (base : Nat) (chars : List Char) : Option Nat :=
  if chars.isEmpty then none
  else
    chars.foldlM (fun value c =>
      match hexDigit? c with
      | some digit => if digit < base then some (base * value + digit) else none
      | none => none) 0

/-- The value of digits with the mark of their base in front. -/
def marked? (chars : List Char) : Option Nat :=
  match chars with
  | '0' :: 'x' :: rest => digits? 16 rest
  | '0' :: 'o' :: rest => digits? 8 rest
  | '0' :: 'b' :: rest => digits? 2 rest
  | _ => none

/-- Whether digits have a zero in front that says nothing: such a text is no number. -/
def isPadded (chars : List Char) : Bool :=
  let digits := if startsSigned chars then chars.tail else chars
  1 < digits.length && digits.head? == some '0' && digits.all Char.isDigit

/-- The integer that a text stands for: decimal, or with the mark of another base. -/
def integer? (chars : List Char) : Option Int :=
  if isPadded chars then none
  else
    let natural? (chars : List Char) : Option Nat :=
      (marked? chars).orElse fun _ => digits? 10 chars
    match chars with
    | '-' :: rest => (natural? rest).map fun value => -(value : Int)
    | '+' :: rest => (natural? rest).map fun value => (value : Int)
    | _ => (natural? chars).map fun value => (value : Int)

/-- The number that an integer is read as, if it fits a machine word. One that only fits two words
is refused; of one that is even larger nothing is said here. -/
def ofInteger (value : Int) : Option (Except Mismatch Json.Number) :=
  if 0 ≤ value && value < Int.pow 2 64 then some (.ok (.natural (UInt64.ofNat value.toNat)))
  else if -Int.pow 2 63 ≤ value && value < 0 then some (.ok (.negative (Int64.ofInt value)))
  else if -Int.pow 2 127 ≤ value && value < Int.pow 2 128 then some (.error .wrongValue)
  else none

/-- The floating-point number that a text stands for. A decimal that is too large for a finite one
does not stand for a number. -/
def float? (text : String) : Option Float :=
  let chars := text.toList
  match (if chars.head? == some '+' then after? ['+'] chars else some chars) with
  | none => none
  | some unsigned =>
      if unsigned.length < chars.length && startsSigned unsigned then none
      else
        let word := String.ofList unsigned
        if word == ".inf" || word == ".Inf" || word == ".INF" then some (1.0 / 0.0)
        else if text == "-.inf" || text == "-.Inf" || text == "-.INF" then some (-1.0 / 0.0)
        else if text == ".nan" || text == ".NaN" || text == ".NAN" then some (0.0 / 0.0)
        else (Decimal.readLiteral word).filter Float.isFinite

/-- What a plain scalar without a tag stands for. -/
def plain (text : String) : Except Mismatch Json.Value :=
  let rest : Except Mismatch Json.Value :=
    if isPadded text.toList then .ok (.string text)
    else
      match float? text with
      | some value => .ok (.float value)
      | none => .ok (.string text)
  if text.isEmpty || isNullWord text then .ok .null
  else
    match truth? text with
    | some value => .ok (.bool value)
    | none =>
        match (integer? text.toList).bind ofInteger with
        | some number => number.map Json.Value.number
        | none => rest

/-- Whether a tag is one that every document knows, by its name. -/
def isCommon (tag : Tag) (name : String) : Bool :=
  tag.octets == Tag.commonStem ++ name.toUTF8.toList

/-- Whether a tag is one that only the writer of a document knows. -/
def isLocal (tag : Option Tag) : Bool :=
  match tag with
  | some tag => tag.isMarked && tag.isText
  | none => false

/-- What a scalar with a given tag stands for. A tag that demands a truth value, a number or null
is heeded, also in quotes; one that is no text says nothing if it starts with an exclamation mark;
any other tag makes a text. -/
def tagged (tag : Tag) (text : String) (isPlain : Bool) : Except Mismatch Json.Value :=
  if isCommon tag "bool" then
    match truth? text with
    | some value => .ok (.bool value)
    | none => .error .wrongValue
  else if isCommon tag "int" then
    match (integer? text.toList).bind ofInteger with
    | some number => number.map Json.Value.number
    | none => .error .wrongValue
  else if isCommon tag "float" then
    match float? text with
    | some value => .ok (.float value)
    | none => .error .wrongValue
  else if isCommon tag "null" then
    if isNullWord text then .ok .null else .error .wrongValue
  else if tag.isMarked && isPlain then plain text
  else .ok (.string text)

/-- What a scalar stands for. -/
def scalar (tag : Option Tag) (text : String) (isPlain : Bool) : Except Mismatch Json.Value :=
  if isLocal tag then .error .wrongType
  else
    match tag with
    | some tag => tagged tag text isPlain
    | none => if isPlain then plain text else .ok (.string text)

end Resolution

end Scan.Yaml
