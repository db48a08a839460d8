/-!
# Numeric literals

Reads a decimal literal, an infinity or a NaN. The value is the floating-point number nearest to
the decimal, ties going to the even neighbour.
-/

namespace Scan.Decimal

/-- The value of a run of decimal digits, continuing a prefix of value `start`. -/
def digitsValue (start : Nat) (digits : List Char) : Nat :=
  digits.foldl (fun value digit => 10 * value + (digit.toNat - '0'.toNat)) start

/-- The floating-point number nearest to `digits · 10 ^ exponent`. Magnitudes far outside the
range of the format are settled without computing the power. -/
def nearest (digits : Nat) (exponent : Int) : Float :=
  let size : Int := (Nat.toDigits 10 digits).length
  if digits == 0 then 0
  else if 400 < size + exponent then 1.0 / 0.0
  else if size + exponent < -400 then 0
  else Float.ofScientific digits (decide (exponent < 0)) exponent.natAbs

/-- The exponent after an `e`, if the characters are one and nothing else. -/
def readExponent : List Char → Option Int
  | '+' :: rest => digitsOnly rest
  | '-' :: rest => (digitsOnly rest).map fun value => -value
  | rest => digitsOnly rest
where
  /-- The value of a non-empty list of digits. -/
  digitsOnly (chars : List Char) : Option Int :=
    if chars.isEmpty || !chars.all Char.isDigit then none
    else some (digitsValue 0 chars)

/-- Digits with an optional point and exponent; at least one digit is needed before the
exponent. -/
def readUnsigned (chars : List Char) : Option Float :=
  let whole := chars.takeWhile Char.isDigit
  let afterWhole := chars.dropWhile Char.isDigit
  let (places, rest) := match afterWhole with
    | '.' :: more => (more.takeWhile Char.isDigit, more.dropWhile Char.isDigit)
    | _ => ([], afterWhole)
  if whole.isEmpty && places.isEmpty then none
  else
    let digits := digitsValue 0 (whole ++ places)
    match rest with
    | [] => some (nearest digits (-places.length))
    | mark :: exponent =>
        if mark == 'e' || mark == 'E' then
          (readExponent exponent).map fun value => nearest digits (value - places.length)
        else none

/-- A word for a value that is not finite, in any case of letters. -/
def readWord (chars : List Char) : Option Float :=
  let word := String.ofList (chars.map Char.toLower)
  if word == "inf" || word == "infinity" then some (1.0 / 0.0)
  else if word == "nan" then some (0.0 / 0.0)
  else none

/-- The magnitude of a literal. -/
def readMagnitude (chars : List Char) : Option Float :=
  (readUnsigned chars).orElse fun _ => readWord chars

/-- A literal with an optional sign. -/
def readLiteral (text : String) : Option Float :=
  match text.toList with
  | '-' :: rest => (readMagnitude rest).map fun value => -value
  | '+' :: rest => readMagnitude rest
  | chars => readMagnitude chars

end Scan.Decimal
