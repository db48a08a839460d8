import Scan.Descriptor
import Scan.Json.Shape

/-!
# Descriptors as data

A descriptor is written as an object from which an absent label, empty parameters and an empty
body are left out. It is read from such an object or from an array of its four fields.
-/

namespace Scan

namespace Descriptor

mutual

/-- The written form of a descriptor. -/
def toValue : Descriptor → Json.Value
  | ⟨kind, label, params, body⟩ =>
      .object ([("kind", .string kind)] ++
        (label.map fun text => ("label", Json.Value.string text)).toList ++
        (if params.isEmpty then [] else [("params", .object params)]) ++
        match toValues body with
        | [] => []
        | values => [("body", .array values)])

/-- The written forms of descriptors. -/
def toValues : List Descriptor → List Json.Value
  | [] => []
  | descriptor :: rest => toValue descriptor :: toValues rest

end

/-- The fields of a descriptor that have been met so far. -/
structure Draft where
  kind : Option String := none
  label : Option (Option String) := none
  params : Option Json.Members := none
  body : Option (List Descriptor) := none

/-- The descriptor that a draft has become. -/
def Draft.finish (draft : Draft) : Except Json.Fault Descriptor :=
  match draft.kind with
  | some kind =>
      .ok ⟨kind, draft.label.getD none, draft.params.getD [], draft.body.getD []⟩
  | none => .error (.missingField "kind")

/-- The name of the structure in messages. -/
def structName : String := "struct CommandDescriptor"

/-- The parameters of a descriptor: of entries of one name the last counts, in the first one's
place. -/
def decodeParams : Json.Decoder Json.Members := fun source document =>
  (Json.Decoder.map Json.Decoder.value source document).map (Json.Members.insertAll [])

mutual

/-- Reads a descriptor. -/
def decode (source : Json.Source) : Json.Document → Except Json.Fault Descriptor
  | .object members closed => decodeFields source closed {} members
  | .array items closed => decodeItems source closed 0 {} items
  | document => .error (document.unexpected structName)

/-- Reads the members of an object into a draft. -/
def decodeFields (source : Json.Source) (closed : Bool) (draft : Draft) :
    List (String × Json.Document) → Except Json.Fault Descriptor
  | [] => if closed then draft.finish else .error .malformed
  | (name, document) :: rest =>
      if name == "kind" then
        if draft.kind.isSome then .error (.duplicateField name)
        else do
          let kind ← Json.Decoder.string source document
          decodeFields source closed { draft with kind := some kind } rest
      else if name == "label" then
        if draft.label.isSome then .error (.duplicateField name)
        else do
          let label ← Json.Decoder.string.optional source document
          decodeFields source closed { draft with label := some label } rest
      else if name == "params" then
        if draft.params.isSome then .error (.duplicateField name)
        else do
          let params ← decodeParams source document
          decodeFields source closed { draft with params := some params } rest
      else if name == "body" then
        if draft.body.isSome then .error (.duplicateField name)
        else do
          let body ← decodeBody source document
          decodeFields source closed { draft with body := some body } rest
      else do
        Json.Decoder.skip document
        decodeFields source closed draft rest

/-- Reads the items of an array, of which `taken` have been used, into a draft. -/
def decodeItems (source : Json.Source) (closed : Bool) (taken : Nat) (draft : Draft) :
    List Json.Document → Except Json.Fault Descriptor
  | [] =>
      if !closed then .error .malformed
      else if taken == 0 then .error (.wrongLength 0 (structName ++ " with 4 elements"))
      else draft.finish
  | document :: rest =>
      match taken with
      | 0 => do
          let kind ← Json.Decoder.string source document
          decodeItems source closed 1 { draft with kind := some kind } rest
      | 1 => do
          let label ← Json.Decoder.string.optional source document
          decodeItems source closed 2 { draft with label := some label } rest
      | 2 => do
          let params ← decodeParams source document
          decodeItems source closed 3 { draft with params := some params } rest
      | 3 => do
          let body ← decodeBody source document
          decodeItems source closed 4 { draft with body := some body } rest
      | _ =>
          match source with
          | .text => .error .malformed
          | .value => .error (.wrongLength (taken + 1 + rest.length) "fewer elements in array")
          | .setAside => .error (.wrongLength (taken + 1 + rest.length) "4 elements in sequence")

/-- Reads the nested steps. -/
def decodeBody (source : Json.Source) : Json.Document → Except Json.Fault (List Descriptor)
  | .array items closed => decodeSteps source closed items
  | document => .error (document.unexpected "a sequence")

/-- Reads descriptors up to the end of an array. -/
def decodeSteps (source : Json.Source) (closed : Bool) :
    List Json.Document → Except Json.Fault (List Descriptor)
  | [] => if closed then .ok [] else .error .malformed
  | document :: rest => do
      let step ← decode source document
      let steps ← decodeSteps source closed rest
      return step :: steps

end

end Descriptor

namespace Sequence

/-- The written form of a sequence. -/
def toValue (sequence : Sequence) : Json.Value :=
  .object [("name", .optString sequence.name),
    ("steps", .array (Descriptor.toValues sequence.steps))]

/-- The fields of a sequence. -/
def record : Json.Record Sequence :=
  Json.Record.pure Sequence.mk
    |>.defaultField "name" Json.Decoder.string.optional none
    |>.field "steps" Descriptor.decodeBody

/-- Reads a sequence. -/
def decode : Json.Decoder Sequence :=
  record.decode "struct Sequence"

end Sequence

end Scan
