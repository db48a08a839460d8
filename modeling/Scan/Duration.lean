import Scan.Scalar

/-!
# Durations and instants

Time is counted in whole nanoseconds. A number of seconds is rounded to the nearest nanosecond, a
half going to the even one.
-/

namespace Scan

/-- A point of a clock that never goes back, in nanoseconds. -/
abbrev Instant := Nat

/-- A length of time. -/
structure Duration where
  nanoseconds : Nat
  deriving BEq, DecidableEq, Repr

namespace Duration

/-- A number of milliseconds. -/
def ofMilliseconds (count : Nat) : Duration :=
  ⟨count * 1000000⟩

/-- One second in nanoseconds. -/
def second : Nat := 1000000000

/-- The longest duration has this many whole seconds. -/
def maxSeconds : Nat := Nat.pow 2 64 - 1

/-- The natural number nearest to a fraction that is not negative; a half goes to the even one. -/
def roundToEven (value : Rat) : Nat :=
  let numerator := value.num.toNat
  let whole := numerator / value.den
  let rest := numerator % value.den
  if 2 * rest < value.den then whole
  else if value.den < 2 * rest then whole + 1
  else whole + whole % 2

/-- A number of seconds as a duration: none if it is negative, not finite or out of range. -/
def ofSeconds? {α : Type} [Scalar α] (seconds : α) : Option Duration :=
  match Scalar.exact seconds with
  | none => none
  | some value =>
      if value < 0 then none
      else
        let count := roundToEven (value * second)
        if count / second ≤ maxSeconds then some ⟨count⟩ else none

/-- The duration as a number of seconds: its whole seconds plus its fraction. -/
def seconds {α : Type} [Scalar α] (duration : Duration) : α :=
  Scalar.ofNat (duration.nanoseconds / second) +
    Scalar.ofNat (duration.nanoseconds % second) / Scalar.ofNat second

/-- The whole milliseconds of a duration. -/
def milliseconds (duration : Duration) : UInt64 :=
  UInt64.ofNat (duration.nanoseconds / 1000000)

/-- The time from one instant to a later one. -/
def between (start stop : Instant) : Duration :=
  ⟨stop - start⟩

/-- The shorter of two durations. -/
def min (left right : Duration) : Duration :=
  if left.nanoseconds ≤ right.nanoseconds then left else right

end Duration

/-! ## Clock texts -/

/-- A number with at least as many digits as asked for. -/
def padded (width number : Nat) : String :=
  let digits := Decimal.digitsOf number
  String.ofList (Decimal.zeros (width - digits.length) ++ digits)

/-- A number of milliseconds as hours, minutes, seconds and milliseconds. -/
def clockText (milliseconds : Nat) : String :=
  padded 2 (milliseconds / 3600000) ++ ":" ++ padded 2 (milliseconds / 60000 % 60) ++ ":" ++
    padded 2 (milliseconds / 1000 % 60) ++ "." ++ padded 3 (milliseconds % 1000)

/-- A number of seconds as `HH:MM:SS.mmm`, rounded to whole milliseconds with a half going up.
What is negative or not a number counts as zero, and the largest word bounds the milliseconds. -/
def formatSeconds (seconds : Float) : String :=
  let bounded := if 0 < seconds then seconds else 0
  clockText (bounded * 1000).round.toUInt64.toNat

end Scan
