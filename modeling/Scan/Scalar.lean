import Scan.Decimal.Notation

/-!
# Numbers that a scan computes with

Channels hold floating-point numbers. What is said of them in exact arithmetic is said of the same
definitions at another instance: everything that computes with channel values is stated over
`Scalar`, whose instances are the floating-point and the rational numbers.
-/

namespace Scan

/-- Numbers with the operations of a scan. Comparisons are tests, since a floating-point number
need not be comparable to itself. -/
class Scalar (α : Type) extends Add α, Sub α, Mul α, Div α where
  ofNat : Nat → α
  /-- The number that a floating-point number denotes. -/
  ofFloat : Float → α
  /-- The exact value, if it is finite. -/
  exact : α → Option Rat
  lt : α → α → Bool
  le : α → α → Bool
  abs : α → α
  /-- One with the sign of a number. -/
  sign : α → α
  /-- The written form in texts for people. -/
  text : α → String

namespace Scalar

variable {α : Type} [Scalar α]

/-- Zero. -/
def zero : α := ofNat 0

/-- Whether a number is neither infinite nor a NaN. -/
def isFinite (value : α) : Bool :=
  (exact value).isSome

/-- Whether two numbers are neither below one another nor incomparable. -/
def same (left right : α) : Bool :=
  le left right && le right left

end Scalar

instance : Scalar Float where
  ofNat value := (UInt64.ofNat value).toFloat
  ofFloat value := value
  exact value := (Decimal.parts value).map Decimal.Binary.toRat
  lt left right := left < right
  le left right := left ≤ right
  abs := Float.abs
  sign value :=
    if value.isNaN then value
    else if value.toBits.toNat < Nat.pow 2 63 then 1.0
    else -1.0
  text := Decimal.plain.write

instance : Scalar Rat where
  ofNat value := value
  ofFloat value := ((Decimal.parts value).map Decimal.Binary.toRat).getD 0
  exact := some
  lt left right := left < right
  le left right := left ≤ right
  abs value := if value < 0 then -value else value
  sign value := if value < 0 then -1 else 1
  text value :=
    if value.den = 1 then toString value.num
    else toString value.num ++ "/" ++ toString value.den

end Scan
