import Scan.Decimal.Literal
import Scan.Error
import Scan.Text.Blank

/-!
# Expressions

Parameters may be expressions. An evaluator is a function of the text; the one at hand knows
numeric literals only.
-/

namespace Scan

/-- The finite number that a text denotes, blanks around it apart. -/
def finiteLiteral? (text : String) : Option Float :=
  (Decimal.readLiteral (Text.trim text)).filter Float.isFinite

/-- Evaluates numeric literals and nothing else. -/
def evaluateLiteral {α : Type} [Scalar α] (expression : String) : Except EvalError α :=
  match finiteLiteral? expression with
  | some value => .ok (Scalar.ofFloat value)
  | none => .error ⟨expression, "not a numeric literal"⟩

end Scan
