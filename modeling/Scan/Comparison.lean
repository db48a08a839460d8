import Scan.Scalar

/-!
# Comparisons

The conditions that a channel can be waited for. Two of them are relative: their threshold is
reckoned from the value at the start of the wait.
-/

namespace Scan

/-- How a value is compared to a threshold. -/
inductive Comparison where
  | equals
  | atLeast
  | above
  | atMost
  | below
  | increaseBy
  | decreaseBy
  deriving BEq, DecidableEq, Repr

namespace Comparison

/-- The written names, in order. -/
def variants : List (String × Comparison) :=
  [("equals", equals), ("at_least", atLeast), ("above", above), ("at_most", atMost),
    ("below", below), ("increase_by", increaseBy), ("decrease_by", decreaseBy)]

/-- The written name. -/
def name : Comparison → String
  | equals => "equals"
  | atLeast => "at_least"
  | above => "above"
  | atMost => "at_most"
  | below => "below"
  | increaseBy => "increase_by"
  | decreaseBy => "decrease_by"

/-- The comparison of a name. -/
def parse? (text : String) : Option Comparison :=
  (variants.find? fun variant => variant.1 == text).map Prod.snd

/-- The sign in descriptions. -/
def symbol : Comparison → String
  | equals => "="
  | atLeast => ">="
  | above => ">"
  | atMost => "<="
  | below => "<"
  | increaseBy => "+="
  | decreaseBy => "-="

/-- Whether the threshold depends on the value at the start. -/
def isRelative : Comparison → Bool
  | increaseBy | decreaseBy => true
  | _ => false

variable {α : Type} [Scalar α]

/-- The threshold for a desired value, given the value at the start. -/
def threshold (comparison : Comparison) (desired initial : α) : α :=
  match comparison with
  | increaseBy => initial + desired
  | decreaseBy => initial - desired
  | _ => desired

/-- Whether a value satisfies the comparison; equality has a tolerance. -/
def holds (comparison : Comparison) (value threshold tolerance : α) : Bool :=
  match comparison with
  | equals => Scalar.le (Scalar.abs (value - threshold)) tolerance
  | atLeast | increaseBy => Scalar.le threshold value
  | above => Scalar.lt threshold value
  | atMost | decreaseBy => Scalar.le value threshold
  | below => Scalar.lt value threshold

/-- Reading a name gives back the comparison that was written. -/
@[simp] theorem parse?_name (comparison : Comparison) :
    parse? comparison.name = some comparison := by
  cases comparison <;> decide +kernel

end Comparison

end Scan
