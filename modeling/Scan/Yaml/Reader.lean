import Scan.Yaml.Node.Parser
import Scan.Yaml.Resolution

/-!
# Reading data from documents

A reader goes through the nodes of one document and follows its aliases. Two bounds keep a short
document from standing for endless data: the depth of collections, and how often aliases are
followed.
-/

namespace Scan.Yaml

/-- Reading with the number of aliases that may still be followed. -/
abbrev Reader (α : Type) := StateT Nat (Except Mismatch) α

namespace Node

mutual

/-- The number of words that a tree is made of; a collection has one at each end. -/
def size : Node → Nat
  | .scalar .. | .alias _ => 1
  | .sequence _ _ items => 2 + sizeOfItems items
  | .mapping _ _ entries => 2 + sizeOfEntries entries

/-- The number of words of trees. -/
def sizeOfItems : List Node → Nat
  | [] => 0
  | item :: rest => size item + sizeOfItems rest

/-- The number of words of the keys and values of a mapping. -/
def sizeOfEntries : List (Node × Node) → Nat
  | [] => 0
  | (key, value) :: rest => size key + size value + sizeOfEntries rest

end

end Node

namespace Reader

/-- How deeply collections may be nested. -/
def maxDepth : Nat := 128

/-- Reads the only document of a text. -/
def ofText {α : Type} (read : Document → Reader α) (documents : List Document) :
    Except Mismatch α :=
  match documents with
  | [document] => (read document).run' (100 * document.root.size)
  | _ => .error .documentCount

/-- The node that a node stands for. -/
def follow (document : Document) (node : Node) : Reader Node := do
  match node with
  | .alias _ =>
      match ← get with
      | 0 => throw .tooManyAliases
      | left + 1 =>
          set left
          return document.resolve node
  | _ => return node

/-- A text: any scalar, as it is written. -/
def text (document : Document) (node : Node) : Reader String := do
  match ← follow document node with
  | .scalar _ _ text _ => return text
  | _ => throw .wrongType

/-- A text that null stands for the absence of. Only a plain scalar can be null. -/
def optionalText (document : Document) (node : Node) : Reader (Option String) := do
  match ← follow document node with
  | .scalar _ _ text false => return some text
  | .scalar _ none text true =>
      return if text.isEmpty || Resolution.isNullWord text then none else some text
  | .scalar _ (some tag) text true =>
      if Resolution.isCommon tag "null" then
        if Resolution.isNullWord text then return none else throw .wrongValue
      else return some text
  | _ => throw .wrongType

/-- The keys of a mapping as texts, with their values. -/
def members {α : Type} (document : Document) (read : Node → Reader α)
    (entries : List (Node × Node)) : Reader (List (String × α)) :=
  entries.mapM fun (key, value) => do
    let name ← text document key
    return (name, ← read value)

/-- Any data. Collections may be nested to a depth. -/
def value (document : Document) (depth : Nat) (node : Node) : Reader Json.Value := do
  match depth, ← follow document node with
  | _, .scalar _ tag text plain => Resolution.scalar tag text plain
  | depth + 1, .sequence _ tag items =>
      if Resolution.isLocal tag then throw .wrongType
      return .array (← items.mapM (value document depth))
  | depth + 1, .mapping _ tag entries =>
      if Resolution.isLocal tag then throw .wrongType
      return .object (Json.Members.insertAll [] (← members document (value document depth) entries))
  | 0, _ => throw .tooDeep
  | _, .alias _ => throw .wrongType

/-- The entries of a mapping; what is left empty counts as an empty one. The rest of the depth comes
with them. -/
def entries (document : Document) (depth : Nat) (node : Node) :
    Reader (List (Node × Node)) := do
  match ← follow document node with
  | .mapping _ _ entries => if depth == 0 then throw .tooDeep else return entries
  | .scalar _ _ "" true => return []
  | _ => throw .wrongType

/-- The items of a sequence; what is left empty counts as an empty one. -/
def items (document : Document) (depth : Nat) (node : Node) : Reader (List Node) := do
  match ← follow document node with
  | .sequence _ _ items => if depth == 0 then throw .tooDeep else return items
  | .scalar _ _ "" true => return []
  | _ => throw .wrongType

end Reader

end Scan.Yaml
