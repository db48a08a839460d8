import Scan.Config.Setting
import Scan.Decimal.Literal
import Scan.Text.Hex

/-!
# Numbers without their signs

In several formats a sign stands in front of a number whatever the number is, so the number behind
it is read first.
-/

namespace Scan.Format

/-- A number without its sign. -/
inductive Magnitude where
  | whole (value : Nat)
  | real (value : Float)
  deriving Repr

namespace Magnitude

/-- The value of a non-empty list of digits in a base of at most sixteen. -/
def readDigits (base : Nat) (digits : List Char) : Option Nat :=
  if digits.isEmpty then none
  else
    digits.foldlM (fun value c =>
      ((Text.hexDigit? c).filter (· < base)).map fun digit => base * value + digit) 0

/-- A decimal number, whole if it is digits only. It must be finite. -/
def readDecimal (chars : List Char) : Option Magnitude :=
  if chars.all Char.isDigit then (readDigits 10 chars).map whole
  else ((Decimal.readUnsigned chars).filter Float.isFinite).map real

/-- The integer with a given sign, if it fits a machine word. -/
def integer? (negative : Bool) (value : Nat) : Option Int :=
  let signed : Int := if negative then -value else value
  if -Int.pow 2 63 ≤ signed && signed < Int.pow 2 63 then some signed else none

/-- The setting that a number with a given sign is. A whole number that does not fit a machine word
is taken for a floating-point number. -/
def toSetting (negative : Bool) : Magnitude → Setting
  | whole value =>
      match integer? negative value with
      | some signed => .integer signed
      | none => .real (if negative then -Decimal.nearest value 0 else Decimal.nearest value 0)
  | real value => .real (if negative then -value else value)

end Magnitude

end Scan.Format
