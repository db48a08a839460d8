import Scan.Table

/-!
# Settings

What the layers of a configuration say before it is known what each setting is for. A later layer
overrides single settings: tables are merged name by name, anything else takes the place of what was
there.
-/

namespace Scan

/-- A setting as it is written. -/
inductive Setting where
  | nil
  | truth (value : Bool)
  | integer (value : Int)
  | real (value : Float)
  | text (value : String)
  | list (items : List Setting)
  | table (entries : List (String × Setting))
  deriving Repr, Inhabited

namespace Setting

/-- The entries of a table; anything else has none. -/
def entries : Setting → Table Setting
  | .table entries => entries
  | _ => []

/-- The items of a list; anything else has none. -/
def items : Setting → List Setting
  | .list items => items
  | _ => []

mutual

/-- A setting overridden by another. -/
def merge (old : Setting) : Setting → Setting
  | .table more => .table (mergeEntries old.entries more)
  | other => other

/-- A table overridden by entries. -/
def mergeEntries (old : Table Setting) : List (String × Setting) → Table Setting
  | [] => old
  | (name, new) :: rest =>
      mergeEntries (old.insert name (merge ((old.get? name).getD .nil) new)) rest

end

/-! ## Paths -/

/-- One step on the way to a nested setting. -/
inductive Step where
  | key (name : String)
  /-- An item of a list; a negative index counts from its end. -/
  | item (index : Int)
  deriving BEq, DecidableEq, Repr

/-- Changes one item of a list, which is made long enough for it. -/
def changeItem (items : List Setting) (index : Int) (change : Setting → Setting) :
    List Setting :=
  let missing (count : Nat) : List Setting := List.replicate count .nil
  let back := index.natAbs
  if 0 ≤ index then
    (items ++ missing (index.toNat + 1 - items.length)).modify index.toNat change
  else if back ≤ items.length then items.modify (items.length - back) change
  else change .nil :: missing (back - items.length - 1) ++ items

/-- Overrides the setting at the end of a path. What is on the way becomes a table or a list. -/
def override (new : Setting) : List Step → Setting → Setting
  | [], old => old.merge new
  | .key name :: rest, old =>
      .table (old.entries.insert name
        (override new rest ((old.entries.get? name).getD .nil)))
  | .item index :: rest, old => .list (changeItem old.items index (override new rest))

/-- Whether a character may stand in a name on a path. -/
def isKeyChar (c : Char) : Bool :=
  c.isAlphanum || c == '_' || c == '-'

/-- The index between brackets, if a text is one with its closing bracket. It has to fit a machine
word. -/
def readIndex (text : String) : Option Int :=
  match text.toList.reverse with
  | ']' :: inside =>
      let isBlank (c : Char) : Bool := c == ' ' || c == '\t'
      let trimmed := ((inside.dropWhile isBlank).reverse).dropWhile isBlank
      let (negative, digits) := match trimmed with
        | '-' :: rest => (true, rest)
        | _ => (false, trimmed)
      if digits.isEmpty || !digits.all Char.isDigit then none
      else
        let value := digits.foldl (fun value c => 10 * value + (c.toNat - '0'.toNat)) 0
        let index : Int := if negative then -value else value
        if -Int.pow 2 63 ≤ index && index < Int.pow 2 63 then some index else none
  | _ => none

/-- The steps of a part of a path between two dots. -/
def readPart (part : String) : Option (List Step) :=
  match part.splitOn "[" with
  | [] => none
  | name :: indices =>
      if name.isEmpty || !name.toList.all isKeyChar then none
      else (indices.mapM readIndex).map fun found => .key name :: found.map Step.item

/-- The path that a name at the top of a layer stands for: parts between dots, or the whole name if
it is not made of such parts. -/
def path (name : String) : List Step :=
  match (name.splitOn ".").mapM readPart with
  | some parts => parts.flatten
  | none => [.key name]

/-- A configuration overridden by a layer. -/
def overlay (settings : Setting) (layer : List (String × Setting)) : Setting :=
  layer.foldl (fun settings entry => override entry.2 (path entry.1) settings) settings

end Setting

end Scan
