/-!
# Binary floating-point numbers as exact values

A finite number is a sign, a significand and a power of two. `Float.parts` takes a number apart;
all decimal work is done on the parts in exact arithmetic.
-/

namespace Scan.Decimal

/-- A finite binary number: `significand · 2 ^ exponent`, with a sign kept apart so that the two
zeros differ. -/
structure Binary where
  negative : Bool
  significand : Nat
  exponent : Int
  deriving Repr, DecidableEq

namespace Binary

/-- The number of bits of a full significand. -/
def precision : Nat := 53

/-- The least exponent, that of the subnormal numbers. -/
def minExponent : Int := -1074

/-- The significand of a power of two, whose lower neighbour is nearer than its upper one. -/
def hidden : Nat := Nat.pow 2 52

/-- The parts of a number's bit pattern, `none` for an infinity or a NaN. -/
def ofBits (bits : UInt64) : Option Binary :=
  let negative := bits.toNat / Nat.pow 2 63 == 1
  let biased := bits.toNat / Nat.pow 2 52 % Nat.pow 2 11
  let fraction := bits.toNat % Nat.pow 2 52
  if biased == 2047 then none
  else if biased == 0 then some ⟨negative, fraction, minExponent⟩
  else some ⟨negative, fraction + hidden, minExponent + (biased - 1 : Nat)⟩

/-- The exact value as a fraction. -/
def toRat (number : Binary) : Rat :=
  let magnitude : Rat :=
    if 0 ≤ number.exponent then (number.significand * Nat.pow 2 number.exponent.toNat : Nat)
    else mkRat number.significand (Nat.pow 2 (-number.exponent).toNat)
  if number.negative then -magnitude else magnitude

end Binary

/-- The parts of a finite number. -/
def parts (number : Float) : Option Binary :=
  Binary.ofBits number.toBits

end Scan.Decimal
