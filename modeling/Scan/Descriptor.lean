import Scan.Json.Value

/-!
# Descriptors and sequences

A descriptor says what one step is to do: a kind, parameters in the order in which they were
given, and for some kinds the steps nested in it. A sequence is a list of descriptors. Neither
says whether it makes sense; that is found out when it is compiled.
-/

namespace Scan

/-- The description of one step. -/
structure Descriptor where
  kind : String
  label : Option String := none
  params : Json.Members := []
  body : List Descriptor := []
  deriving BEq, Repr, Inhabited

namespace Descriptor

/-- The value of a parameter. -/
def param? (descriptor : Descriptor) (name : String) : Option Json.Value :=
  descriptor.params.get? name

/-- The descriptor with one parameter set; a parameter that was there keeps its place. -/
def withParam (descriptor : Descriptor) (name : String) (value : Json.Value) : Descriptor :=
  { descriptor with params := descriptor.params.insert name value }

/-- The descriptor under a label of its own. -/
def withLabel (descriptor : Descriptor) (label : String) : Descriptor :=
  { descriptor with label := some label }

/-- The descriptor with other nested steps. -/
def withBody (descriptor : Descriptor) (body : List Descriptor) : Descriptor :=
  { descriptor with body := body }

/-! ## The built-in kinds -/

/-- Waits for a time. -/
def delay (seconds : Float) : Descriptor :=
  { kind := "delay", params := [("seconds", .float seconds)] }

/-- Writes a value to a channel. -/
def set (channel : String) (value : Float) : Descriptor :=
  { kind := "set", params := [("channel", .string channel), ("value", .float value)] }

/-- Waits until a channel satisfies a condition. -/
def wait (channel comparison : String) (value : Float) : Descriptor :=
  { kind := "wait"
    params := [("channel", .string channel), ("comparison", .string comparison),
      ("value", .float value)] }

/-- Leaves a note. -/
def comment (text : String) : Descriptor :=
  { kind := "comment", params := [("text", .string text)] }

/-- Runs steps in order. -/
def group (body : List Descriptor) : Descriptor :=
  { kind := "group", body := body }

/-- Steps a channel through a range and runs a body at each value. -/
def loopOver (channel : String) (start stop step : Float) (body : List Descriptor) :
    Descriptor :=
  { kind := "loop"
    params := [("channel", .string channel), ("start", .float start), ("end", .float stop),
      ("step", .float step)]
    body := body }

end Descriptor

/-- Steps in the order in which they run. -/
structure Sequence where
  name : Option String := none
  steps : List Descriptor
  deriving BEq, Repr, Inhabited

end Scan
