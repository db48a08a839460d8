import Scan.Descriptor.Codec
import Scan.Yaml.Printer
import Scan.Yaml.Reader

/-!
# Sequences as YAML

The form in which people write sequences: the fields of a sequence and of its steps are the keys of
mappings, of which unknown ones are passed over.
-/

namespace Scan

open Yaml

/-- Why a sequence cannot be loaded. -/
inductive LoadError where
  /-- The text is not YAML. -/
  | grammar (problem : Problem)
  /-- The text is YAML, but no sequence. -/
  | content (mismatch : Mismatch)
  /-- The file cannot be read. -/
  | unreadable (path reason : String)
  deriving BEq, DecidableEq, Repr

/-- The text of a failure to load. -/
def LoadError.message : LoadError → String
  | .grammar _ | .content _ => "failed to parse sequence YAML"
  | .unreadable path reason => "cannot read " ++ path ++ ": " ++ reason

namespace Descriptor

/-- Reads the parameters: of entries of one name the last counts, in the first one's place. -/
def readParams (document : Document) (depth : Nat) (node : Node) : Reader Json.Members := do
  let entries ← Reader.entries document depth node
  return Json.Members.insertAll []
    (← Reader.members document (Reader.value document (depth - 1)) entries)

/-- Reads one entry of a step into a draft. The nested steps are read by `readBody`. -/
def readField (document : Document) (depth : Nat) (readBody : Node → Reader (List Descriptor))
    (draft : Draft) (entry : Node × Node) : Reader Draft := do
  let (key, node) := entry
  match ← Reader.text document key with
  | "kind" =>
      if draft.kind.isSome then throw (.duplicateField "kind")
      return { draft with kind := some (← Reader.text document node) }
  | "label" =>
      if draft.label.isSome then throw (.duplicateField "label")
      return { draft with label := some (← Reader.optionalText document node) }
  | "params" =>
      if draft.params.isSome then throw (.duplicateField "params")
      return { draft with params := some (← readParams document depth node) }
  | "body" =>
      if draft.body.isSome then throw (.duplicateField "body")
      return { draft with body := some (← readBody node) }
  | _ => return draft

mutual

/-- Reads a step. -/
def read (document : Document) (depth : Nat) (node : Node) : Reader Descriptor := do
  let entries ← Reader.entries document depth node
  let readBody (node : Node) : Reader (List Descriptor) :=
    match depth with
    | 0 => throw .tooDeep
    | depth + 1 => readList document depth node
  let draft ← entries.foldlM (readField document (depth - 1) readBody) {}
  match draft.finish with
  | .ok descriptor => return descriptor
  | .error _ => throw (.missingField "kind")

/-- Reads steps. -/
def readList (document : Document) (depth : Nat) (node : Node) : Reader (List Descriptor) := do
  let items ← Reader.items document depth node
  match depth with
  | 0 => return []
  | depth + 1 => items.mapM (read document depth)

end

/-- Loads the step of a text. -/
def ofYaml (text : String) : Except LoadError Descriptor := do
  let documents ← (Document.ofText text).mapError .grammar
  let readRoot (document : Document) : Reader Descriptor :=
    read document Reader.maxDepth document.root
  (Reader.ofText readRoot documents).mapError .content

/-- The step as a text. -/
def toYaml (descriptor : Descriptor) : String :=
  Yaml.ofValue descriptor.toValue

end Descriptor

namespace Sequence

/-- The fields of a sequence that have been met so far. -/
structure Draft where
  name : Option (Option String) := none
  steps : Option (List Descriptor) := none

/-- Reads one entry of a sequence into a draft. -/
def readField (document : Document) (draft : Draft) (entry : Node × Node) : Reader Draft := do
  let (key, node) := entry
  match ← Reader.text document key with
  | "name" =>
      if draft.name.isSome then throw (.duplicateField "name")
      return { draft with name := some (← Reader.optionalText document node) }
  | "steps" =>
      if draft.steps.isSome then throw (.duplicateField "steps")
      let steps ← Descriptor.readList document (Reader.maxDepth - 1) node
      return { draft with steps := some steps }
  | _ => return draft

/-- Reads the sequence that a document holds. -/
def read (document : Document) : Reader Sequence := do
  let entries ← Reader.entries document Reader.maxDepth document.root
  let draft ← entries.foldlM (readField document) {}
  match draft.steps with
  | some steps => return { name := draft.name.getD none, steps := steps }
  | none => throw (.missingField "steps")

/-- Loads the sequence of a text. -/
def ofYaml (text : String) : Except LoadError Sequence := do
  let documents ← (Document.ofText text).mapError .grammar
  (Reader.ofText read documents).mapError .content

/-- The name of a file without what follows its last dot. A name that only begins with a dot is
whole. -/
def stem? (path : String) : Option String :=
  let isName (part : String) : Bool := !part.isEmpty && part != "."
  match ((path.splitOn "/").filter isName).getLast? with
  | none => none
  | some name =>
      if name == ".." then none
      else
        let chars := name.toList.reverse
        let before := ((chars.dropWhile (· != '.')).drop 1).reverse
        some (if before.isEmpty then name else String.ofList before)

/-- Loads the sequence of a file, given what reading the file came to. A sequence without a name is
named after the file. -/
def ofFile (path : String) (content : Except String String) : Except LoadError Sequence := do
  let text ← content.mapError (LoadError.unreadable path)
  let sequence ← ofYaml text
  return { sequence with name := sequence.name.orElse fun _ => stem? path }

end Sequence

end Scan
