import Scan.Decimal.Literal
import Scan.Json.Value
import Scan.Text.Hex

/-!
# JSON documents

A document is a text read as far as it is JSON. Where the text stops being JSON the tree says so:
a container is left open after its last good item, or a place holds no value at all. A decoder
that walks the tree in the order of the text then meets the first fault first, be it one of form
or one of syntax.
-/

namespace Scan.Json

/-- A text read as far as possible. -/
inductive Document where
  | null
  | bool (value : Bool)
  | number (value : Number)
  | string (value : String)
  /-- Items in order; `closed` is false if the text breaks off after them. -/
  | array (items : List Document) (closed : Bool)
  /-- Members in order, repeated names included; `closed` as for an array. -/
  | object (members : List (String × Document)) (closed : Bool)
  /-- No value can be read here. -/
  | broken
  deriving Inhabited

namespace Document

/-! ## From values -/

mutual

/-- The document that a value is. -/
def ofValue : Value → Document
  | .null => .null
  | .bool value => .bool value
  | .number value => .number value
  | .string value => .string value
  | .array items => .array (ofValues items) true
  | .object members => .object (ofMembers members) true

/-- The documents that values are. -/
def ofValues : List Value → List Document
  | [] => []
  | item :: rest => ofValue item :: ofValues rest

/-- The documents that the values of members are. -/
def ofMembers : List (String × Value) → List (String × Document)
  | [] => []
  | (name, value) :: rest => (name, ofValue value) :: ofMembers rest

end

/-! ## To values -/

mutual

/-- The value of a document without faults; of members of one name the last one counts and the
first one gives the place. -/
def toValue? : Document → Option Value
  | .null => some .null
  | .bool value => some (.bool value)
  | .number value => some (.number value)
  | .string value => some (.string value)
  | .array items closed =>
      if closed then (toValues? items).map .array else none
  | .object members closed =>
      if closed then (toMembers? members).map fun found => .object (Members.insertAll [] found)
      else none
  | .broken => none

/-- The values of items without faults. -/
def toValues? : List Document → Option (List Value)
  | [] => some []
  | item :: rest =>
      match toValue? item, toValues? rest with
      | some value, some values => some (value :: values)
      | _, _ => none

/-- The members whose values are without faults. -/
def toMembers? : List (String × Document) → Option (List (String × Value))
  | [] => some []
  | (name, document) :: rest =>
      match toValue? document, toMembers? rest with
      | some value, some values => some ((name, value) :: values)
      | _, _ => none

end

/-! ## From text -/

/-- The blanks between the words of a text. -/
def isSpace (c : Char) : Bool :=
  c == ' ' || c == '\n' || c == '\t' || c == '\r'

/-- The rest of a text after blanks. -/
def skipSpace (chars : List Char) : List Char :=
  chars.dropWhile isSpace

/-- The character of an escape with four digits; one above the basic plane is written as a pair of
surrogates, and half a pair is a fault. -/
def readCodePoint (chars : List Char) : Option (Char × List Char) :=
  let rest := chars.drop 4
  match Text.readHex 4 chars with
  | none => none
  | some unit =>
      if 0xDC00 ≤ unit && unit ≤ 0xDFFF then none
      else if 0xD800 ≤ unit && unit ≤ 0xDBFF then
        match rest with
        | '\\' :: 'u' :: more =>
            match Text.readHex 4 more with
            | some low =>
                if 0xDC00 ≤ low && low ≤ 0xDFFF then
                  some (Char.ofNat (0x10000 + (unit - 0xD800) * 0x400 + (low - 0xDC00)),
                    more.drop 4)
                else none
            | none => none
        | _ => none
      else some (Char.ofNat unit, rest)

/-- The character that a one-letter escape stands for. -/
def simpleEscape? (c : Char) : Option Char :=
  if c == '"' || c == '\\' || c == '/' then some c
  else if c == 'b' then some (Char.ofNat 8)
  else if c == 'f' then some (Char.ofNat 12)
  else if c == 'n' then some '\n'
  else if c == 'r' then some '\r'
  else if c == 't' then some '\t'
  else none

/-- The text of a string after its opening quote, gathered in reverse, and the rest after the
closing one. `fuel` bounds the number of characters. -/
def readString (fuel : Nat) (gathered : List Char) (chars : List Char) :
    Option (String × List Char) :=
  match fuel, chars with
  | 0, _ => none
  | _, [] => none
  | fuel + 1, c :: rest =>
      if c == '"' then some (String.ofList gathered.reverse, rest)
      else if c == '\\' then
        match rest with
        | [] => none
        | mark :: more =>
            if mark == 'u' then
              match readCodePoint more with
              | some (found, rest) => readString fuel (found :: gathered) rest
              | none => none
            else
              match simpleEscape? mark with
              | some found => readString fuel (found :: gathered) more
              | none => none
      else if c.toNat < 32 then none
      else readString fuel (c :: gathered) rest

/-! ### Numbers

A number with a fraction or an exponent, or too large for a word, is a word of leading digits
times a power of ten, computed with one floating-point operation. Digits that no longer fit the
word only count for the power. -/

/-- The first digits whose value fits a word, and how many digits are left over. -/
def gatherDigits (start : Nat) : List Char → Nat × Nat
  | [] => (start, 0)
  | digit :: rest =>
      let next := start * 10 + (digit.toNat - '0'.toNat)
      if next < Nat.pow 2 64 then gatherDigits next rest else (start, rest.length + 1)

/-- Divides by `10 ^ 308` until what is left of a power of ten has a floating-point form. -/
def scaleDown (value : Float) (power : Nat) : Nat → Float
  | 0 => 0
  | steps + 1 =>
      if power ≤ 308 then value / Float.ofScientific 1 false power
      else if value == 0 then value
      else scaleDown (value / Float.ofScientific 1 false 308) (power - 308) steps

/-- `significand · 10 ^ exponent` with a sign, none if it is too large. -/
def floatOfParts (negative : Bool) (significand : Nat) (exponent : Int) : Option Float :=
  let value := (UInt64.ofNat significand).toFloat
  let scaled :=
    if exponent < 0 then some (scaleDown value exponent.natAbs 5)
    else if exponent ≤ 308 then
      let product := value * Float.ofScientific 1 false exponent.toNat
      if product.isInf then none else some product
    else if value == 0 then some 0
    else none
  scaled.map fun magnitude => if negative then -magnitude else magnitude

/-- The exponent part of a number, if there is one, added to `start`; none if it has no digits.
A huge exponent is cut to one that is large enough to decide the value. -/
def readPower (start : Int) (chars : List Char) : Option (Int × List Char) :=
  match chars with
  | mark :: rest =>
      if mark == 'e' || mark == 'E' then
        let (negative, digits) := match rest with
          | '+' :: more => (false, more)
          | '-' :: more => (true, more)
          | _ => (false, rest)
        let run := digits.takeWhile Char.isDigit
        if run.isEmpty then none
        else
          let size := (run.dropWhile (· == '0'))
          let power : Int := if size.length ≤ 9 then Decimal.digitsValue 0 size else Int.pow 2 31
          some (start + (if negative then -power else power), digits.dropWhile Char.isDigit)
      else some (start, chars)
  | [] => some (start, chars)

/-- The number without fraction and exponent: an integer if a word holds it. -/
def integerNumber (negative : Bool) (significand left : Nat) : Option Number :=
  if left == 0 then
    if !negative then some (.natural (UInt64.ofNat significand))
    else if significand == 0 || Nat.pow 2 63 < significand then
      some (.float (-(UInt64.ofNat significand).toFloat))
    else some (.negative (Int64.ofInt (-significand)))
  else (floatOfParts negative significand left).map .float

/-- A number after its sign. -/
def readUnsignedNumber (negative : Bool) (chars : List Char) : Option (Number × List Char) :=
  let whole := chars.takeWhile Char.isDigit
  let rest := chars.dropWhile Char.isDigit
  if whole.isEmpty || (whole.head? == some '0' && whole.length != 1) then none
  else
    let (significand, left) := gatherDigits 0 whole
    match rest with
    | '.' :: more =>
        let places := more.takeWhile Char.isDigit
        if places.isEmpty then none
        else
          let (significand, unused) := gatherDigits significand places
          match readPower (left - (places.length - unused : Nat)) (more.dropWhile Char.isDigit) with
          | some (power, rest) =>
              (floatOfParts negative significand power).map fun value => (.float value, rest)
          | none => none
    | mark :: _ =>
        if mark == 'e' || mark == 'E' then
          match readPower left rest with
          | some (power, rest) =>
              (floatOfParts negative significand power).map fun value => (.float value, rest)
          | none => none
        else (integerNumber negative significand left).map fun value => (value, rest)
    | [] => (integerNumber negative significand left).map fun value => (value, rest)

/-- A number with its sign. -/
def readNumber : List Char → Option (Number × List Char)
  | '-' :: rest => readUnsignedNumber true rest
  | chars => readUnsignedNumber false chars

/-- The rest after a word that the text must start with. -/
def dropWord (word : List Char) (chars : List Char) : Option (List Char) :=
  match word, chars with
  | [], rest => some rest
  | _ :: _, [] => none
  | c :: word, d :: chars => if c == d then dropWord word chars else none

/-- A document and the rest of the text, which is missing if the text broke off inside. -/
abbrev Reading := Document × Option (List Char)

/-- A scalar document from a reader's result. -/
def scalar {α : Type} (wrap : α → Document) : Option (α × List Char) → Reading
  | some (value, rest) => (wrap value, some rest)
  | none => (.broken, none)

/-- A fixed word as a document. -/
def keyword (word : String) (document : Document) (chars : List Char) : Reading :=
  match dropWord word.toList chars with
  | some rest => (document, some rest)
  | none => (.broken, none)

mutual

/-- Reads one document. `depth` is the number of containers that may still be opened, and `fuel`
bounds the length of the text. -/
def read (fuel depth : Nat) (chars : List Char) : Reading :=
  match fuel with
  | 0 => (.broken, none)
  | fuel + 1 =>
      match skipSpace chars with
      | [] => (.broken, none)
      | '"' :: rest => scalar .string (readString (rest.length + 1) [] rest)
      | '[' :: rest =>
          if depth ≤ 1 then (.broken, none)
          else
            match skipSpace rest with
            | ']' :: rest => (.array [] true, some rest)
            | rest =>
                let (items, rest) := readItems fuel (depth - 1) rest
                (.array items rest.isSome, rest)
      | '\x7b' :: rest =>
          if depth ≤ 1 then (.broken, none)
          else
            match skipSpace rest with
            | '\x7d' :: rest => (.object [] true, some rest)
            | rest =>
                let (members, rest) := readMembers fuel (depth - 1) rest
                (.object members rest.isSome, rest)
      | 'n' :: rest => keyword "ull" .null rest
      | 't' :: rest => keyword "rue" (.bool true) rest
      | 'f' :: rest => keyword "alse" (.bool false) rest
      | chars => scalar .number (readNumber chars)

/-- Reads the items of an array up to its closing bracket. -/
def readItems (fuel depth : Nat) (chars : List Char) : List Document × Option (List Char) :=
  match fuel with
  | 0 => ([], none)
  | fuel + 1 =>
      match read fuel depth chars with
      | (item, none) => ([item], none)
      | (item, some rest) =>
          match skipSpace rest with
          | ',' :: rest =>
              let (items, rest) := readItems fuel depth rest
              (item :: items, rest)
          | ']' :: rest => ([item], some rest)
          | _ => ([item], none)

/-- Reads the members of an object up to its closing brace. -/
def readMembers (fuel depth : Nat) (chars : List Char) :
    List (String × Document) × Option (List Char) :=
  match fuel with
  | 0 => ([], none)
  | fuel + 1 =>
      match skipSpace chars with
      | '"' :: rest =>
          match readString (rest.length + 1) [] rest with
          | none => ([], none)
          | some (name, rest) =>
              match skipSpace rest with
              | ':' :: rest =>
                  match read fuel depth rest with
                  | (value, none) => ([(name, value)], none)
                  | (value, some rest) =>
                      match skipSpace rest with
                      | ',' :: rest =>
                          let (members, rest) := readMembers fuel depth rest
                          ((name, value) :: members, rest)
                      | '\x7d' :: rest => ([(name, value)], some rest)
                      | _ => ([(name, value)], none)
              | _ => ([(name, .broken)], none)
      | _ => ([], none)

end

/-- How many containers may be open at once, plus one. -/
def maxDepth : Nat := 128

/-- Reads a whole text: its document, and whether nothing but blanks follows it. -/
def ofText (text : String) : Document × Bool :=
  let chars := text.toList
  match read (2 * chars.length + 2) maxDepth chars with
  | (document, some rest) => (document, (skipSpace rest).isEmpty)
  | (document, none) => (document, false)

end Document

/-- The value of a text that is JSON as a whole. -/
def Value.parse? (text : String) : Option Value :=
  match Document.ofText text with
  | (document, true) => document.toValue?
  | (_, false) => none

end Scan.Json
