import Scan.Decimal.Shortest

/-!
# Written forms of numbers

Two notations write the shortest decimal of a floating-point number. The plain one, used in texts
for people, never has an exponent and drops a fraction of zero. The one of data files always shows
that the number is not an integer, by a fraction or by an exponent.
-/

namespace Scan.Decimal

/-- The decimal digits of a natural number. -/
def digitsOf (number : Nat) : List Char :=
  Nat.toDigits 10 number

/-- A run of zeros. -/
def zeros (count : Nat) : List Char :=
  List.replicate count '0'

/-- A decimal in positional notation; `whole` is written after one without a fraction. -/
def Scaled.positional (decimal : Scaled) (whole : String) : String :=
  let digits := digitsOf decimal.digits
  if 0 ≤ decimal.exponent then
    String.ofList (digits ++ zeros decimal.exponent.toNat) ++ whole
  else
    let places := (-decimal.exponent).toNat
    if places < digits.length then
      String.ofList (digits.take (digits.length - places)) ++ "." ++
        String.ofList (digits.drop (digits.length - places))
    else "0." ++ String.ofList (zeros (places - digits.length) ++ digits)

/-- The exponent of ten of the first digit. -/
def Scaled.leading (decimal : Scaled) : Int :=
  decimal.exponent + (digitsOf decimal.digits).length - 1

/-- A decimal with one digit before the point and a signed exponent. -/
def Scaled.scientific (decimal : Scaled) : String :=
  let digits := digitsOf decimal.digits
  let mantissa := match digits with
    | [] => ""
    | [digit] => String.singleton digit
    | digit :: rest => String.singleton digit ++ "." ++ String.ofList rest
  let leading := decimal.leading
  let sign := if leading < 0 then "-" else "+"
  mantissa ++ "e" ++ sign ++ toString leading.natAbs

/-- The decisions that tell one way of writing numbers from another. -/
structure Style where
  /-- Which way an exact tie between two shortest decimals goes. -/
  tie : Tie
  /-- What follows a number without a fraction. -/
  whole : String
  /-- Whether a decimal is written with an exponent, by the place of its first digit. -/
  hasExponent : Int → Bool
  nan : String
  infinity : String

/-- The written form of a number. -/
def Style.write (style : Style) (number : Float) : String :=
  match parts number with
  | some binary =>
      let decimal := binary.shortest style.tie
      let sign := if binary.negative then "-" else ""
      if style.hasExponent decimal.leading then sign ++ decimal.scientific
      else sign ++ decimal.positional style.whole
  | none =>
      if number.isNaN then style.nan
      else if number < 0 then "-" ++ style.infinity
      else style.infinity

/-- Numbers in texts for people: digits only, whatever their size. -/
def plain : Style where
  tie := .up
  whole := ""
  hasExponent _ := false
  nan := "NaN"
  infinity := "inf"

/-- Numbers in data: a fraction is always shown, and an exponent is used from `10 ^ 16` on and
below `10 ^ -5`. Values that are not finite have no form there and are written as null. -/
def data : Style where
  tie := .toEven
  whole := ".0"
  hasExponent leading := leading < -5 || 16 ≤ leading
  nan := "null"
  infinity := "null"

end Scan.Decimal
