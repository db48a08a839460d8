import Scan.Format.Magnitude
import Scan.Format.Parse

/-!
# Texts, numbers and times in TOML

What stands on one line after an equals sign, except for lists and tables. A time is read as the
text that it is written as.
-/

namespace Scan.Format.Toml

open Parse

/-- Whether a character is a blank of a line. -/
def isSpace (c : Char) : Bool :=
  c == ' ' || c == '\t'

/-- Whether a character may stand in a text or a comment. -/
def isAllowed (c : Char) : Bool :=
  c == '\t' || (0x20 ≤ c.toNat && c.toNat != 0x7F)

/-- Takes the blanks of a line. -/
def skipBlanks : Parse Unit :=
  discard (takeWhile isSpace)

/-- Takes the end of a line if it is next, and tells whether it was. -/
def acceptBreak : Parse Bool := do
  if ← accept "\n" then return true
  accept "\x0d\n"

/-- Takes a comment if there is one. -/
def skipComment : Parse Unit := do
  if ← accept "#" then discard (takeWhile isAllowed)

/-- Takes blanks, ends of lines and comments. -/
def skipLines (fuel : Nat) : Parse Unit := do
  skipBlanks
  skipComment
  match fuel with
  | 0 => return
  | fuel + 1 => if ← acceptBreak then skipLines fuel

/-! ## Texts -/

/-- The character of an escape after its backslash. -/
def escape : Parse Char := do
  let code (count : Nat) : Parse Char := do
    let found ← lift (Text.readCode count (← rest))
    drop count
    return found
  match ← next with
  | 'b' => return Char.ofNat 8
  | 't' => return '\t'
  | 'n' => return '\n'
  | 'f' => return Char.ofNat 12
  | 'r' => return '\r'
  | 'e' => return Char.ofNat 27
  | '"' => return '"'
  | '\\' => return '\\'
  | 'x' => code 2
  | 'u' => code 4
  | 'U' => code 8
  | _ => fail

/-- A text of one line up to its closing quote. Only in double quotes there are escapes. -/
def lineText (quote : Char) (gathered : List Char) (fuel : Nat) : Parse String := do
  match fuel with
  | 0 => fail
  | fuel + 1 =>
      let c ← next
      if c == quote then return String.ofList gathered.reverse
      else if c == '\\' && quote == '"' then lineText quote ((← escape) :: gathered) fuel
      else if isAllowed c then lineText quote (c :: gathered) fuel
      else fail

/-- Whether what is left of a line after a backslash is blank. -/
def hidesBreak (chars : List Char) : Bool :=
  match chars.dropWhile isSpace with
  | '\n' :: _ | '\r' :: '\n' :: _ => true
  | _ => false

/-- A text of several lines up to its three closing quotes, in front of which up to two more may
stand that belong to the text. -/
def linesText (quote : Char) (gathered : List Char) (fuel : Nat) : Parse String := do
  match fuel with
  | 0 => fail
  | fuel + 1 =>
      let quotes := ((← rest).takeWhile (· == quote)).length
      if 3 ≤ quotes then
        if 5 < quotes then fail
        drop quotes
        return String.ofList (gathered.reverse ++ List.replicate (quotes - 3) quote)
      else if ← acceptBreak then linesText quote ('\n' :: gathered) fuel
      else
        let c ← next
        if c == '\\' && quote == '"' then
          if hidesBreak (← rest) then
            discard (takeWhile fun c => isSpace c || c == '\n' || c == '\r')
            linesText quote gathered fuel
          else linesText quote ((← escape) :: gathered) fuel
        else if isAllowed c then linesText quote (c :: gathered) fuel
        else fail

/-- A text. The end of a line right after three opening quotes does not count. -/
def text : Parse String := do
  let size := (← rest).length + 1
  let c ← next
  if c != '"' && c != '\'' then fail
  if ← accept (String.ofList [c, c]) then
    discard acceptBreak
    linesText c [] size
  else lineText c [] size

/-! ## Numbers and times -/

/-- Digits of a base without the low lines between them. Each of these stands between two digits. -/
def ungroup (base : Nat) (chars : List Char) : Option (List Char) :=
  let isDigit (c : Option Char) : Bool :=
    ((c.bind Text.hexDigit?).map fun digit => decide (digit < base)).getD false
  let isGrouped (index : Nat) : Bool :=
    chars[index]? != some '_' ||
      (0 < index && isDigit chars[index - 1]? && isDigit chars[index + 1]?)
  if (List.range chars.length).all isGrouped then some (chars.filter (· != '_')) else none

/-- Whether an integer part is written without zeros in front. -/
def isWhole (digits : List Char) : Bool :=
  !digits.isEmpty && (digits.head? != some '0' || digits.length == 1)

/-- Whether what follows an integer part is a fraction, an exponent or both. -/
def isTail (chars : List Char) : Bool :=
  let isPower (chars : List Char) : Bool := match chars with
    | mark :: sign :: digits =>
        (mark == 'e' || mark == 'E') &&
          let digits := if sign == '+' || sign == '-' then digits else sign :: digits
          !digits.isEmpty && digits.all Char.isDigit
    | _ => false
  match chars with
  | '.' :: places =>
      let power := places.dropWhile Char.isDigit
      (places.head?.map Char.isDigit).getD false && (power.isEmpty || isPower power)
  | _ => isPower chars

/-- A number in base ten after its sign. -/
def decimal (negative : Bool) (chars : List Char) : Option Setting := do
  if chars == "inf".toList || chars == "nan".toList then
    return (Magnitude.real (if chars.head? == some 'i' then 1.0 / 0.0 else 0.0 / 0.0)).toSetting
      negative
  let chars ← ungroup 10 chars
  let whole := chars.takeWhile Char.isDigit
  let tail := chars.dropWhile Char.isDigit
  if !isWhole whole then none
  else if tail.isEmpty then
    (Magnitude.integer? negative (Decimal.digitsValue 0 whole)).map Setting.integer
  else if isTail tail then (Magnitude.readDecimal chars).map fun found => found.toSetting negative
  else none

/-- An integer in another base after its mark. -/
def based (base : Nat) (chars : List Char) : Option Setting := do
  let digits ← Magnitude.readDigits base (← ungroup base chars)
  (Magnitude.integer? false digits).map Setting.integer

/-- The value of two digits below a bound. -/
def twoDigits? (bound : Nat) (chars : List Char) : Option Nat :=
  if chars.length == 2 && chars.all Char.isDigit then
    some (Decimal.digitsValue 0 chars) |>.filter (· < bound)
  else none

/-- The number of days of a month. -/
def daysIn (year month : Nat) : Nat :=
  if month == 2 then
    if year % 4 == 0 && (year % 100 != 0 || year % 400 == 0) then 29 else 28
  else if month == 4 || month == 6 || month == 9 || month == 11 then 30
  else 31

/-- Whether characters are a date. -/
def isDate (chars : List Char) : Bool :=
  match chars with
  | [a, b, c, d, '-', e, f, '-', g, h] =>
      [a, b, c, d].all Char.isDigit &&
        match twoDigits? 13 [e, f], twoDigits? 32 [g, h] with
        | some month, some day =>
            1 ≤ month && 1 ≤ day && day ≤ daysIn (Decimal.digitsValue 0 [a, b, c, d]) month
        | _, _ => false
  | _ => false

/-- Whether characters are the hours and minutes of a clock. -/
def isClock (chars : List Char) : Bool :=
  match chars with
  | [a, b, ':', c, d] => (twoDigits? 24 [a, b]).isSome && (twoDigits? 60 [c, d]).isSome
  | _ => false

/-- Whether characters are a time of day. -/
def isTime (chars : List Char) : Bool :=
  isClock (chars.take 5) &&
    match chars.drop 5 with
    | [] => true
    | [':', a, b] => (twoDigits? 61 [a, b]).isSome
    | ':' :: a :: b :: '.' :: places =>
        (twoDigits? 61 [a, b]).isSome && !places.isEmpty && places.all Char.isDigit
    | _ => false

/-- Whether characters are the distance of a time zone. -/
def isZone (chars : List Char) : Bool :=
  match chars with
  | [] => true
  | [z] => z == 'Z' || z == 'z'
  | sign :: clock => (sign == '+' || sign == '-') && isClock clock

/-- Whether characters are a date, a time of day, or both with or without a time zone. -/
def isMoment (chars : List Char) : Bool :=
  let isZoneMark (c : Char) : Bool := c == 'Z' || c == 'z' || c == '+' || c == '-'
  match chars.drop 10 with
  | [] => isDate chars || isTime chars
  | mark :: time =>
      isTime chars || (isDate (chars.take 10) && (mark == 'T' || mark == 't' || mark == ' ') &&
        isTime (time.takeWhile (!isZoneMark ·)) && isZone (time.dropWhile (!isZoneMark ·)))

/-- A truth value, a number or a time, by the characters it is made of. -/
def word? (chars : List Char) : Option Setting :=
  match chars with
  | '0' :: 'x' :: digits => based 16 digits
  | '0' :: 'o' :: digits => based 8 digits
  | '0' :: 'b' :: digits => based 2 digits
  | '+' :: digits => decimal false digits
  | '-' :: digits => decimal true digits
  | _ =>
      if chars == "true".toList then some (.truth true)
      else if chars == "false".toList then some (.truth false)
      else if isMoment chars then some (.text (String.ofList chars))
      else decimal false chars

/-- A truth value, a number or a time. Between a date and a time of day a space may stand. -/
def word : Parse Setting := do
  let isWordChar (c : Char) : Bool :=
    c.isAlphanum || c == '+' || c == '-' || c == '.' || c == ':' || c == '_'
  let first ← takeWhile isWordChar
  let more ← match ← rest with
    | ' ' :: c :: _ =>
        if isDate first && c.isDigit then do
          drop 1
          pure (' ' :: (← takeWhile isWordChar))
        else pure []
    | _ => pure []
  lift (word? (first ++ more))

end Scan.Format.Toml
