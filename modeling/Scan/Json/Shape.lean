import Scan.Json.Document
import Scan.Json.Printer
import Scan.Text.Literal

/-!
# Reading typed data from documents

A decoder takes a document apart in the order of its text and stops at the first fault. `Record`
describes a structure by its fields: it is read from an object, whose members may come in any
order, or from an array of the fields in their own order.
-/

namespace Scan.Json

/-- Why a document does not have the wanted shape. -/
inductive Fault where
  /-- The text is not JSON at the place that was reached. -/
  | malformed
  /-- A value of the wrong type. -/
  | wrongType (found expected : String)
  /-- A value of the right type that is not allowed. -/
  | wrongValue (found expected : String)
  | wrongLength (length : Nat) (expected : String)
  | missingField (name : String)
  | duplicateField (name : String)
  | unknownVariant (name : String) (known : List String)
  deriving BEq, Repr, DecidableEq

/-- Alternatives in a message. -/
def alternatives : List String → String
  | [] => "there are no variants"
  | [one] => "expected `" ++ one ++ "`"
  | [one, other] => "expected `" ++ one ++ "` or `" ++ other ++ "`"
  | names => "expected one of " ++ ", ".intercalate (names.map fun name => "`" ++ name ++ "`")

/-- The text of a fault. -/
def Fault.message : Fault → String
  | .malformed => "malformed text"
  | .wrongType found expected => "invalid type: " ++ found ++ ", expected " ++ expected
  | .wrongValue found expected => "invalid value: " ++ found ++ ", expected " ++ expected
  | .wrongLength length expected =>
      "invalid length " ++ toString length ++ ", expected " ++ expected
  | .missingField name => "missing field `" ++ name ++ "`"
  | .duplicateField name => "duplicate field `" ++ name ++ "`"
  | .unknownVariant name known =>
      "unknown variant `" ++ name ++ "`, " ++ alternatives known

/-- Where a document comes from. It decides how a surplus of items and a variant that is not a
name are reported, and what counts as no content. -/
inductive Source where
  | text
  | value
  /-- Members set aside until a tag was found. -/
  | setAside
  deriving BEq, DecidableEq, Repr

/-- A reader of one type of data. -/
abbrev Decoder (α : Type) := Source → Document → Except Fault α

namespace Document

/-- The name of a document's type in messages. -/
def typeName : Document → String
  | .null => "null"
  | .bool value => "boolean `" ++ (if value then "true" else "false") ++ "`"
  | .number (.float value) => "floating point `" ++ Decimal.data.write value ++ "`"
  | .number value => "integer `" ++ value.render ++ "`"
  | .string value => "string " ++ Text.shown value
  | .array _ _ => "sequence"
  | .object _ _ => "map"
  | .broken => "nothing"

/-- The fault of a document that is not of the expected type. -/
def unexpected (document : Document) (expected : String) : Fault :=
  match document with
  | .broken => .malformed
  | _ => .wrongType document.typeName expected

end Document

namespace Decoder

/-- Any value at all. -/
def value : Decoder Value := fun _ document =>
  match document.toValue? with
  | some found => .ok found
  | none => .error .malformed

/-- A string. -/
def string : Decoder String := fun _ document =>
  match document with
  | .string found => .ok found
  | _ => .error (document.unexpected "a string")

/-- A floating-point number; integers are taken to the nearest one. -/
def float : Decoder Float := fun _ document =>
  match document with
  | .number found => .ok found.toFloat
  | _ => .error (document.unexpected "f64")

/-- A number that is a machine word, called by the name of its kind in messages. -/
def word (kind : String) : Decoder UInt64 := fun _ document =>
  match document with
  | .number (.natural found) => .ok found
  | .number (.negative _) => .error (.wrongValue document.typeName kind)
  | _ => .error (document.unexpected kind)

/-- A value that null stands for the absence of. -/
def optional {α : Type} (decoder : Decoder α) : Decoder (Option α) := fun source document =>
  match document with
  | .null => .ok none
  | _ => (decoder source document).map some

/-- Items one after another, then the end of the array. -/
def items {α : Type} (decoder : Decoder α) (source : Source) (closed : Bool) :
    List Document → Except Fault (List α)
  | [] => if closed then .ok [] else .error .malformed
  | item :: rest => do
      let found ← decoder source item
      let others ← items decoder source closed rest
      return found :: others

/-- A list. -/
def list {α : Type} (decoder : Decoder α) : Decoder (List α) := fun source document =>
  match document with
  | .array documents closed => items decoder source closed documents
  | _ => .error (document.unexpected "a sequence")

/-- Members one after another, then the end of the object. -/
def members {α : Type} (decoder : Decoder α) (source : Source) (closed : Bool) :
    List (String × Document) → Except Fault (List (String × α))
  | [] => if closed then .ok [] else .error .malformed
  | (name, item) :: rest => do
      let found ← decoder source item
      let others ← members decoder source closed rest
      return (name, found) :: others

/-- A map with free names, in the order of the text. -/
def map {α : Type} (decoder : Decoder α) : Decoder (List (String × α)) := fun source document =>
  match document with
  | .object documents closed => members decoder source closed documents
  | _ => .error (document.unexpected "a map")

/-- The variant of a given name. -/
def named {α : Type} (variants : List (String × α)) (name : String) : Except Fault α :=
  match variants.find? fun variant => variant.1 == name with
  | some variant => .ok variant.2
  | none => .error (.unknownVariant name (variants.map Prod.fst))

/-- The content of a variant without data: null, and in what has been set aside also an empty
object. -/
def nothing : Decoder Unit := fun source document =>
  match source, document with
  | _, .null => .ok ()
  | .setAside, .object [] _ => .ok ()
  | _, _ => .error (document.unexpected "unit")

/-- One of a list of names; an object with one member of that name and no content counts too. -/
def choice {α : Type} (variants : List (String × α)) : Decoder α := fun source document =>
  match document with
  | .string name => named variants name
  | .object [(name, content)] closed => do
      let found ← named variants name
      nothing source content
      if closed then return found else throw .malformed
  | .object ((name, content) :: _) _ =>
      match source with
      | .text => do
          discard (named variants name)
          nothing source content
          throw .malformed
      | _ => .error (.wrongValue "map" "map with a single key")
  | .object [] _ =>
      match source with
      | .text => .error .malformed
      | _ => .error (.wrongValue "map" "map with a single key")
  | _ =>
      match source with
      | .text => .error .malformed
      | _ => .error (document.unexpected "string or map")

/-- A member that no field takes: it only has to be well-formed. -/
def skip (document : Document) : Except Fault Unit :=
  match document.toValue? with
  | some _ => .ok ()
  | none => .error .malformed

end Decoder

/-! ## Structures -/

/-- A description of the fields of a structure. What has been read of them is a `State`. -/
structure Record (α : Type) where
  /-- The number of fields. -/
  count : Nat
  State : Type
  /-- Nothing has been read. -/
  start : State
  /-- Reads a member if its name is that of a field. -/
  member : Source → String → Document → State → Option (Except Fault State)
  /-- Reads the fields from items in order, of which `taken` have been used before. -/
  items : Source → (expected : String) → (closed : Bool) → (taken : Nat) → List Document →
    Except Fault (α × List Document)
  /-- The structure, once all members have been read. -/
  finish : State → Except Fault α

namespace Record

/-- A structure without fields. -/
def pure {α : Type} (value : α) : Record α where
  count := 0
  State := Unit
  start := ()
  member _ _ _ _ := none
  items _ _ _ _ documents := .ok (value, documents)
  finish _ := .ok value

/-- One more field. `absent` is its value where an object lacks it, `short` where an array ends
before it. -/
def fieldWith {α β : Type} (record : Record (α → β)) (name : String) (decoder : Decoder α)
    (absent short : Option α) : Record β where
  count := record.count + 1
  State := record.State × Option α
  start := (record.start, none)
  member source found document state :=
    if found == name then
      match state.2 with
      | some _ => some (.error (.duplicateField name))
      | none => some ((decoder source document).map fun value => (state.1, some value))
    else
      (record.member source found document state.1).map fun result =>
        result.map fun earlier => (earlier, state.2)
  items source expected closed taken documents := do
    let (build, rest) ← record.items source expected closed taken documents
    match rest with
    | document :: rest => return (build (← decoder source document), rest)
    | [] =>
        if !closed then throw .malformed
        match short with
        | some value => return (build value, [])
        | none => throw (.wrongLength (taken + record.count) expected)
  finish state := do
    let build ← record.finish state.1
    match state.2.orElse fun _ => absent with
    | some value => return build value
    | none => throw (.missingField name)

/-- A field that has to be there. -/
def field {α β : Type} (record : Record (α → β)) (name : String) (decoder : Decoder α) :
    Record β :=
  record.fieldWith name decoder none none

/-- A field that may be null or, in an object, absent. -/
def optionalField {α β : Type} (record : Record (Option α → β)) (name : String)
    (decoder : Decoder α) : Record β :=
  record.fieldWith name decoder.optional (some none) none

/-- A field with a value for where it is absent. -/
def defaultField {α β : Type} (record : Record (α → β)) (name : String) (decoder : Decoder α)
    (value : α) : Record β :=
  record.fieldWith name decoder (some value) (some value)

/-- Reads members in order and then asks for the end of the object. -/
def readMembers {α : Type} (record : Record α) (source : Source) (closed : Bool) :
    List (String × Document) → record.State → Except Fault α
  | [], state => if closed then record.finish state else .error .malformed
  | (name, document) :: rest, state =>
      match record.member source name document state with
      | some result => do readMembers record source closed rest (← result)
      | none => do
          Decoder.skip document
          readMembers record source closed rest state

/-- How a count of elements reads in a message. -/
def elements (count : Nat) : String :=
  toString count ++ (if count == 1 then " element" else " elements")

/-- Reads the fields from items in order; more items than fields are a fault. -/
def readItems {α : Type} (record : Record α) (name : String) (source : Source) (closed : Bool)
    (documents : List Document) : Except Fault α := do
  let expected := name ++ " with " ++ elements record.count
  let (found, rest) ← record.items source expected closed 0 documents
  if rest.isEmpty then
    if closed then return found else throw .malformed
  else
    match source with
    | .text => throw .malformed
    | .value => throw (.wrongLength documents.length "fewer elements in array")
    | .setAside => throw (.wrongLength documents.length (elements record.count ++ " in sequence"))

/-- Reads a structure, which is called by `name` in messages. -/
def decode {α : Type} (record : Record α) (name : String) : Decoder α := fun source document =>
  match document with
  | .object members closed => record.readMembers source closed members record.start
  | .array documents closed => record.readItems name source closed documents
  | _ => .error (document.unexpected name)

end Record

namespace Decoder

/-- Decodes a whole text. -/
def ofText {α : Type} (decoder : Decoder α) (text : String) : Except Fault α := do
  let (document, complete) := Document.ofText text
  let found ← decoder .text document
  if complete then return found else throw .malformed

/-- Decodes a value. -/
def ofValue {α : Type} (decoder : Decoder α) (value : Value) : Except Fault α :=
  decoder .value (.ofValue value)

end Decoder

end Scan.Json
