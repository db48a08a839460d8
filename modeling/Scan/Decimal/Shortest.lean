import Scan.Decimal.Binary

/-!
# Shortest decimals

The decimal with the fewest significant digits that reads back to a given binary number, and of
those the one nearest to it. A grid of `n` significant digits has at most two points next to the
value; the first grid on which one of them reads back wins.
-/

namespace Scan.Decimal

/-- A decimal number: `digits · 10 ^ exponent`. -/
structure Scaled where
  digits : Nat
  exponent : Int
  deriving Repr, DecidableEq

/-- Which way a value exactly between two decimals goes. -/
inductive Tie where
  | up
  | toEven
  deriving Repr, DecidableEq

/-- `base · 2 ^ twos · 10 ^ tens` as a fraction of natural numbers. -/
def fraction (base : Nat) (twos tens : Int) : Nat × Nat :=
  (base * Nat.pow 2 twos.toNat * Nat.pow 10 tens.toNat,
    Nat.pow 2 (-twos).toNat * Nat.pow 10 (-tens).toNat)

/-- Whether the first fraction is at most the second. -/
def fractionLe (left right : Nat × Nat) : Bool :=
  left.1 * right.2 ≤ right.1 * left.2

/-- Whether the first fraction is below the second. -/
def fractionLt (left right : Nat × Nat) : Bool :=
  left.1 * right.2 < right.1 * left.2

namespace Binary

/-- Four times the distance, in units of the last place, to the midpoint with the lower
neighbour: it is halved at a power of two, where the numbers below are twice as dense. -/
def lowerGap (number : Binary) : Nat :=
  if number.significand == hidden && minExponent < number.exponent then 1 else 2

/-- Whether `candidate · 10 ^ place` rounds to the number: it lies between the midpoints with the
two neighbours, which themselves belong to the number whose significand is even. -/
def readsBack (number : Binary) (candidate : Nat) (place : Int) : Bool :=
  let point := fraction candidate 0 place
  let lower := fraction (4 * number.significand - number.lowerGap) (number.exponent - 2) 0
  let upper := fraction (4 * number.significand + 2) (number.exponent - 2) 0
  if number.significand % 2 == 0 then fractionLe lower point && fractionLe point upper
  else fractionLt lower point && fractionLt point upper

/-- The multiple of `10 ^ place` nearest to the number among its two neighbours on that grid,
provided that one of them reads back. -/
def onGrid (number : Binary) (tie : Tie) (place : Int) : Option Scaled :=
  let scaled := fraction number.significand number.exponent (-place)
  let floor := scaled.1 / scaled.2
  let remainder := scaled.1 % scaled.2
  if remainder == 0 then some ⟨floor, place⟩
  else
    let low := number.readsBack floor place
    let high := number.readsBack (floor + 1) place
    if low && high then
      let goesUp := match compare (2 * remainder) scaled.2 with
        | .lt => false
        | .gt => true
        | .eq => match tie with
          | .up => true
          | .toEven => floor % 2 == 1
      some ⟨if goesUp then floor + 1 else floor, place⟩
    else if low then some ⟨floor, place⟩
    else if high then some ⟨floor + 1, place⟩
    else none

/-- The exponent of ten of the first significant digit, for a number that is not zero. -/
def leadingPlace (number : Binary) : Int :=
  let scaled := fraction number.significand number.exponent 0
  if scaled.2 ≤ scaled.1 then Nat.log2 (scaled.1 / scaled.2) * 30103 / 100000 |> settle scaled 2
  else -((Nat.log2 (scaled.2 / scaled.1) + 1) * 30103 / 100000 + 1 : Nat) |> settle scaled 3
where
  /-- Raises an estimate that is at most `steps` too small. -/
  settle (scaled : Nat × Nat) (steps : Nat) (estimate : Int) : Int :=
    match steps with
    | 0 => estimate
    | steps + 1 =>
        if fractionLe (fraction 1 0 (estimate + 1)) scaled then
          settle scaled steps (estimate + 1)
        else estimate

/-- The first grid, from one digit on, with a point that reads back. Seventeen digits always
suffice, so the exact value at the end is never reached by a double. -/
def search (number : Binary) (tie : Tie) (leading : Int) (count : Nat) : Nat → Scaled
  | 0 => ⟨number.significand, 0⟩
  | steps + 1 =>
      match number.onGrid tie (leading - count) with
      | some decimal => decimal
      | none => search number tie leading (count + 1) steps

end Binary

/-- Moves trailing zeros of the digits into the exponent. -/
def Scaled.strip (decimal : Scaled) : Nat → Scaled
  | 0 => decimal
  | steps + 1 =>
      if decimal.digits % 10 == 0 && decimal.digits != 0 then
        Scaled.strip ⟨decimal.digits / 10, decimal.exponent + 1⟩ steps
      else decimal

/-- The shortest decimal of a binary number's magnitude, without trailing zeros. -/
def Binary.shortest (number : Binary) (tie : Tie) : Scaled :=
  if number.significand == 0 then ⟨0, 0⟩
  else (number.search tie number.leadingPlace 0 18).strip 20

end Scan.Decimal
