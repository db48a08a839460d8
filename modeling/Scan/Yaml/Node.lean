/-!
# YAML nodes

The content of a YAML document as a tree. A node may be numbered, and an alias stands for the last
node of its number, wherever that is.
-/

namespace Scan.Yaml

/-- A tag in two parts: what its handle stands for, and what follows the handle. A tag is made of
octets, which need not be a text. -/
structure Tag where
  stem : List UInt8
  suffix : List UInt8
  deriving BEq, DecidableEq, Repr

namespace Tag

/-- The stem of the tags that every document knows. -/
def commonStem : List UInt8 := "tag:yaml.org,2002:".toUTF8.toList

/-- Octets as far as the first one that is zero. -/
def beforeZero (octets : List UInt8) : List UInt8 :=
  octets.takeWhile (· != 0)

/-- A tag in one piece. In each part a zero octet ends what counts. -/
def octets (tag : Tag) : List UInt8 :=
  beforeZero tag.stem ++ beforeZero tag.suffix

/-- Whether a tag starts with an exclamation mark. -/
def isMarked (tag : Tag) : Bool :=
  tag.octets.head? == some 0x21

/-- Whether the octets of a tag are a text. -/
def isText (tag : Tag) : Bool :=
  (String.fromUTF8? ⟨tag.octets.toArray⟩).isSome

end Tag

/-- A node of a document. -/
inductive Node where
  /-- A scalar; `plain` tells that it stands without quotes. -/
  | scalar (number : Option Nat) (tag : Option Tag) (text : String) (plain : Bool)
  | sequence (number : Option Nat) (tag : Option Tag) (items : List Node)
  | mapping (number : Option Nat) (tag : Option Tag) (entries : List (Node × Node))
  | alias (number : Nat)
  deriving Repr, Inhabited

namespace Node

/-- A node that is not there. -/
def empty : Node := .scalar none none "" true

/-- The number of a node. -/
def number? : Node → Option Nat
  | .scalar number .. | .sequence number .. | .mapping number .. => number
  | .alias _ => none

mutual

/-- The numbered nodes of a tree. -/
def numbered : Node → List (Nat × Node)
  | .scalar number tag text plain =>
      (number.map fun found => (found, Node.scalar number tag text plain)).toList
  | .sequence number tag items =>
      (number.map fun found => (found, Node.sequence number tag items)).toList ++
        numberedItems items
  | .mapping number tag entries =>
      (number.map fun found => (found, Node.mapping number tag entries)).toList ++
        numberedEntries entries
  | .alias _ => []

/-- The numbered nodes of trees. -/
def numberedItems : List Node → List (Nat × Node)
  | [] => []
  | item :: rest => numbered item ++ numberedItems rest

/-- The numbered nodes of the keys and values of a mapping. -/
def numberedEntries : List (Node × Node) → List (Nat × Node)
  | [] => []
  | (key, value) :: rest => numbered key ++ numbered value ++ numberedEntries rest

end

end Node

/-- A document: its root and its numbered nodes, the last one first. -/
structure Document where
  root : Node
  numbered : List (Nat × Node)
  deriving Repr

namespace Document

/-- The document of a root. -/
def ofRoot (root : Node) : Document :=
  ⟨root, root.numbered.reverse⟩

/-- The node that a node stands for: another one only if it is an alias. -/
def resolve (document : Document) (node : Node) : Node :=
  match node with
  | .alias number => ((document.numbered.find? fun entry => entry.1 == number).map Prod.snd).getD
      Node.empty
  | _ => node

end Document

end Scan.Yaml
