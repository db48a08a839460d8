import Scan.Config.Setting
import Scan.Yaml.Resolution
import Scan.Yaml12.Document

/-!
# Settings in YAML

A plain word is null, a truth value or a number if it is written as one, and a tag may say what it
has to be. What is not as its tag demands is void: as a value it is nil, but as a key it is passed
over, so that its value becomes the next key.
-/

namespace Scan.Format.Yaml

open Scan.Yaml (Document Node Tag)
open Scan.Yaml.Resolution (digits?)

/-! ## Scalars -/

/-- The value of an integer with an optional sign, if it fits a machine word. -/
def readInteger (base : Nat) (chars : List Char) : Option Int :=
  let digits := digits? base
  let value : Option Int := match chars with
    | '-' :: rest => (digits rest).map fun value => -(value : Int)
    | '+' :: rest => (digits rest).map fun value => (value : Int)
    | _ => (digits chars).map fun value => (value : Int)
  value.filter fun value => decide (-Int.pow 2 63 ≤ value ∧ value < Int.pow 2 63)

/-- The integer that a plain word stands for. The mark of a base stands in front of any sign. -/
def integer? (chars : List Char) : Option Int :=
  match chars with
  | '0' :: 'x' :: rest => readInteger 16 rest
  | '0' :: 'o' :: rest => readInteger 8 rest
  | '+' :: rest => (readInteger 10 rest).orElse fun _ => readInteger 10 chars
  | _ => readInteger 10 chars

/-- The truth value that a plain word stands for. -/
def truth? (word : String) : Option Bool :=
  if word == "true" || word == "True" || word == "TRUE" then some true
  else if word == "false" || word == "False" || word == "FALSE" then some false
  else none

/-- Words for numbers that are not finite. -/
def infiniteWords : List String :=
  [".inf", ".Inf", ".INF", "+.inf", "+.Inf", "+.INF", "-.inf", "-.Inf", "-.INF", ".nan", ".NaN",
    ".NAN"]

/-- Whether a plain word is taken for a number that is not an integer. -/
def isReal (word : String) : Bool :=
  infiniteWords.contains word ||
    (word.toList.any Char.isDigit && (Decimal.readLiteral word).isSome)

/-! ## Data -/

/-- What a node stands for. A number that is not an integer is known by its text only. -/
inductive Datum where
  | void
  | nil
  | truth (value : Bool)
  | integer (value : Int)
  | real (text : String)
  | text (value : String)
  | list (items : List Datum)
  | table (entries : List (Datum × Datum))
  deriving BEq, Repr, Inhabited

namespace Datum

/-- What a plain word stands for. -/
def ofWord (word : String) : Datum :=
  match integer? word.toList with
  | some value => .integer value
  | none =>
      if word == "~" || word == "null" || word.isEmpty then .nil
      else
        match truth? word with
        | some value => .truth value
        | none => if isReal word then .real word else .text word

/-- What a plain word with a tag stands for: a text, unless a tag with the common stem says
otherwise. -/
def ofTaggedWord (tag : Tag) (word : String) : Datum :=
  let isNamed (name : String) : Bool :=
    tag.stem == Tag.commonStem && tag.suffix == name.toUTF8.toList
  if isNamed "bool" then ((truth? word).map Datum.truth).getD .void
  else if isNamed "int" then ((readInteger 10 word.toList).map Datum.integer).getD .void
  else if isNamed "float" then if isReal word then .real word else .void
  else if isNamed "null" then if word == "~" || word == "null" then .nil else .void
  else .text word

/-- What a scalar stands for. -/
def ofScalar (tag : Option Tag) (word : String) (isPlain : Bool) : Datum :=
  match tag with
  | some tag => if isPlain then ofTaggedWord tag word else .text word
  | none => if isPlain then ofWord word else .text word

/-- Whether a datum is void. -/
def isVoid : Datum → Bool
  | .void => true
  | _ => false

/-- The entries of a mapping from its keys and values in order. A datum is a key if no key is
waiting for its value; one that is void does not wait. No key may come twice, and one without a
value is left out. -/
def pairUp (waiting : Datum) (found : List (Datum × Datum)) :
    List Datum → Option (List (Datum × Datum))
  | [] => some found
  | datum :: rest =>
      if waiting.isVoid then pairUp datum found rest
      else if found.any fun entry => entry.1 == waiting then none
      else pairUp .void (found ++ [(waiting, datum)]) rest

/-- The datum of a node. An alias for a node that it stands in is void; `enclosing` are the numbers
of those. -/
def ofNode (document : Document) (fuel : Nat) (enclosing : List Nat) (node : Node) :
    Option Datum :=
  match fuel with
  | 0 => none
  | fuel + 1 =>
      let within := node.number?.toList ++ enclosing
      match node with
      | .alias number =>
          if enclosing.contains number then some .void
          else ofNode document fuel enclosing (document.resolve node)
      | .scalar _ tag word isPlain => some (ofScalar tag word isPlain)
      | .sequence _ _ items => (items.mapM (ofNode document fuel within)).map Datum.list
      | .mapping _ _ entries => do
          let found ← entries.mapM fun (key, value) => do
            return [← ofNode document fuel within key, ← ofNode document fuel within value]
          return .table (← pairUp .void [] found.flatten)

/-- The name in a table that a datum stands for. -/
def name? : Datum → Option String
  | .text name | .real name => some name
  | .integer value => some (toString value)
  | .truth value => some (if value then "true" else "false")
  | _ => none

mutual

/-- The setting that a datum is. The words for numbers that are not finite cannot be read. -/
def toSetting? : Datum → Option Setting
  | .void | .nil => some .nil
  | .truth value => some (.truth value)
  | .integer value => some (.integer value)
  | .real word => (Decimal.readLiteral word).map Setting.real
  | .text value => some (.text value)
  | .list items => (toSettings? items).map Setting.list
  | .table entries => (toEntries? entries).map fun found => .table (Table.ofList found)

/-- The settings that data are. -/
def toSettings? : List Datum → Option (List Setting)
  | [] => some []
  | item :: rest => do return (← toSetting? item) :: (← toSettings? rest)

/-- The names and settings that the entries of a table are. -/
def toEntries? : List (Datum × Datum) → Option (List (String × Setting))
  | [] => some []
  | (key, value) :: rest => do
      let name ← name? key
      let setting ← toSetting? value
      return (name, setting) :: (← toEntries? rest)

end

end Datum

/-- The setting of a text. One without a document is an empty table. -/
def read (text : String) : Option Setting :=
  match Yaml12.documentOf text with
  | .error _ => none
  | .ok none => some (.table [])
  | .ok (some document) =>
      let fuel := (document.numbered.length + 1) * (8 * text.length + 8)
      (Datum.ofNode document fuel [] document.root).bind Datum.toSetting?

end Scan.Format.Yaml
