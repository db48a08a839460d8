import Scan.Descriptor
import Scan.Evaluator
import Scan.Json.Printer

/-!
# Parameters

Typed access to the parameters of a descriptor. A parameter that is null counts as absent. What is
wrong with a descriptor is a `Defect`, which becomes an error under the descriptor's kind.
-/

namespace Scan

/-- What can be wrong with the parameters or the body of one descriptor. -/
inductive Defect where
  | unknownParameter (name : String)
  | hasBody
  | missingNumber (name : String)
  | missingText (name : String)
  | notFinite (name : String)
  | notNumber (name : String) (found : Json.Value)
  | notText (name : String) (found : Json.Value)
  | notFlag (name : String) (found : Json.Value)
  | empty (name : String)
  | negative (name found : String)
  | negativeDelay (found : String)
  | outOfRange (name seconds : String)
  | unknownComparison (text : String)
  | zeroStep
  | tooManyIterations (start stop step : String)
  | workOverflow
  deriving BEq, Repr

/-- The most values that one loop may step through. -/
def maxIterations : Nat := 1000000

namespace Defect

/-- The text of a defect. -/
def message : Defect → String
  | unknownParameter name => "unknown parameter '" ++ name ++ "'"
  | hasBody => "does not take a body"
  | missingNumber name => "missing '" ++ name ++ "' number"
  | missingText name => "missing '" ++ name ++ "' string"
  | notFinite name => "'" ++ name ++ "' is not a finite number"
  | notNumber name found => "'" ++ name ++ "' must be a number, got " ++ found.compact
  | notText name found => "'" ++ name ++ "' must be a string, got " ++ found.compact
  | notFlag name found => "'" ++ name ++ "' must be a boolean, got " ++ found.compact
  | empty name => "'" ++ name ++ "' must not be empty"
  | negative name found => "'" ++ name ++ "' must be >= 0, got " ++ found
  | negativeDelay found => "seconds must be >= 0, got " ++ found
  | outOfRange name seconds => "'" ++ name ++ "' of " ++ seconds ++ " sec is out of range"
  | unknownComparison text => "unknown comparison '" ++ text ++ "'"
  | zeroStep => "step must not be 0"
  | tooManyIterations start stop step =>
      start ++ " .. " ++ stop ++ " step " ++ step ++ " exceeds " ++ toString maxIterations ++
        " iterations"
  | workOverflow => "total work overflows"

/-- The defect as the error of a descriptor of some kind. -/
def error (defect : Defect) (kind : String) : ScanError :=
  .validation kind defect.message

/-- A result under the kind of the descriptor that it is about. -/
def under {β : Type} (kind : String) (result : Except Defect β) : Except ScanError β :=
  result.mapError (·.error kind)

end Defect

/-- A number given literally or as an expression. -/
inductive Quantity (α : Type) where
  | literal (value : α)
  | expression (text : String)
  deriving BEq, Repr

/-- The form of a quantity in descriptions. -/
def Quantity.text {α : Type} [Scalar α] : Quantity α → String
  | .literal value => Scalar.text value
  | .expression text => "`" ++ text ++ "`"

namespace Descriptor

variable {α : Type} [Scalar α]

/-- Refuses parameters of other names than the known ones, and names the first. -/
def requireNames (descriptor : Descriptor) (known : List String) : Except Defect Unit :=
  match descriptor.params.names.find? fun name => !known.contains name with
  | some name => .error (.unknownParameter name)
  | none => .ok ()

/-- Refuses nested steps. -/
def requireNoBody (descriptor : Descriptor) : Except Defect Unit :=
  if descriptor.body.isEmpty then .ok () else .error .hasBody

/-- A number that may be absent. -/
def number? (descriptor : Descriptor) (name : String) : Except Defect (Option α) :=
  match descriptor.param? name with
  | none | some .null => .ok none
  | some (.number found) =>
      if found.toFloat.isFinite then .ok (some (Scalar.ofFloat found.toFloat))
      else .error (.notFinite name)
  | some found => .error (.notNumber name found)

/-- A number that has to be there. -/
def number (descriptor : Descriptor) (name : String) : Except Defect α := do
  match ← descriptor.number? name with
  | some value => return value
  | none => throw (.missingNumber name)

/-- A number that may be absent but not negative. -/
def nonNegative? (descriptor : Descriptor) (name : String) : Except Defect (Option α) := do
  match ← descriptor.number? (α := α) name with
  | some value =>
      if Scalar.lt value Scalar.zero then throw (.negative name (Scalar.text value))
      else return some value
  | none => return none

/-- A number of seconds, absent meaning none, as a duration. -/
def duration (α : Type) [Scalar α] (descriptor : Descriptor) (name : String) :
    Except Defect Duration := do
  let seconds : α := (← descriptor.nonNegative? name).getD Scalar.zero
  match Duration.ofSeconds? seconds with
  | some duration => return duration
  | none => throw (.outOfRange name (Scalar.text seconds))

/-- A limit in seconds; zero and absent both mean that there is none. -/
def timeout? (α : Type) [Scalar α] (descriptor : Descriptor) (name : String) :
    Except Defect (Option Duration) := do
  let limit ← descriptor.duration α name
  return if limit.nanoseconds == 0 then none else some limit

/-- A text that may be absent but not blank. -/
def text? (descriptor : Descriptor) (name : String) : Except Defect (Option String) :=
  match descriptor.param? name with
  | none | some .null => .ok none
  | some (.string found) => if Text.isAllBlank found then .error (.empty name) else .ok (some found)
  | some found => .error (.notText name found)

/-- A text that has to be there. -/
def text (descriptor : Descriptor) (name : String) : Except Defect String := do
  match ← descriptor.text? name with
  | some found => return found
  | none => throw (.missingText name)

/-- A flag with a value for where it is absent. -/
def flag (descriptor : Descriptor) (name : String) (default : Bool) : Except Defect Bool :=
  match descriptor.param? name with
  | none | some .null => .ok default
  | some (.bool found) => .ok found
  | some found => .error (.notFlag name found)

/-- A number, a text that is a number, or else an expression. -/
def quantity (descriptor : Descriptor) (name : String) : Except Defect (Quantity α) :=
  match descriptor.param? name with
  | some (.string found) =>
      match finiteLiteral? found with
      | some value => .ok (.literal (Scalar.ofFloat value))
      | none => if Text.isAllBlank found then .error (.empty name) else .ok (.expression found)
  | _ => (descriptor.number name).map .literal

end Descriptor

end Scan
