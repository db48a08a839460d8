/-!
# JSON values

Objects keep the order of their members, and numbers keep the difference between integers and
floating-point numbers, so that a value can be written back as it was read.
-/

namespace Scan.Json

/-- A number: an integer that fits a machine word, or a floating-point number. A negative integer
is below zero, so that every integer has one form. -/
inductive Number where
  | natural (value : UInt64)
  | negative (value : Int64)
  | float (value : Float)
  deriving BEq, Repr

/-- The floating-point number nearest to a number. -/
def Number.toFloat : Number → Float
  | .natural value => value.toFloat
  | .negative value => value.toFloat
  | .float value => value

/-- A value of the data format. -/
inductive Value where
  | null
  | bool (value : Bool)
  | number (value : Number)
  | string (value : String)
  | array (items : List Value)
  | object (members : List (String × Value))
  deriving BEq, Repr, Inhabited

/-- Named values in a fixed order. -/
abbrev Members := List (String × Value)

namespace Members

/-- The value under a name. -/
def get? (members : Members) (name : String) : Option Value :=
  (members.find? fun member => member.1 == name).map Prod.snd

/-- Puts a value under a name: in the place of an earlier value of that name, else at the end. -/
def insert (members : Members) (name : String) (value : Value) : Members :=
  match members with
  | [] => [(name, value)]
  | (other, old) :: rest =>
      if other == name then (name, value) :: rest
      else (other, old) :: Members.insert rest name value

/-- Puts values under names one after another. -/
def insertAll (members : Members) (more : List (String × Value)) : Members :=
  more.foldl (fun members member => members.insert member.1 member.2) members

/-- The names in order. -/
def names (members : Members) : List String :=
  members.map Prod.fst

end Members

namespace Value

/-- The natural number as a value. -/
def nat (value : Nat) : Value :=
  .number (.natural (UInt64.ofNat value))

/-- The machine word as a value. -/
def word (value : UInt64) : Value :=
  .number (.natural value)

/-- The floating-point number as a value, null when it is not finite. -/
def float (value : Float) : Value :=
  if value.isFinite then .number (.float value) else .null

/-- The text as a value, null when there is none. -/
def optString : Option String → Value
  | some text => .string text
  | none => .null

/-- A member of an object, null for any other value and any other name. -/
def member (value : Value) (name : String) : Value :=
  match value with
  | .object members => (Members.get? members name).getD .null
  | _ => .null

/-- The text of a string. -/
def asString? : Value → Option String
  | .string text => some text
  | _ => none

/-- The number nearest to a number of any kind. -/
def asFloat? : Value → Option Float
  | .number value => some value.toFloat
  | _ => none

/-- Whether the value is null. -/
def isNull : Value → Bool
  | .null => true
  | _ => false

end Value

end Scan.Json
