import Scan.Yaml.Node
import Scan.Yaml.Token.Lexer

/-!
# From tokens to documents

The tokens of a text are put together to trees. Keys, values and items that are left out are empty
nodes. The documents of version 1.1 of the language follow at the end.
-/

namespace Scan.Yaml

/-- What versions of the language differ in. -/
structure Dialect where
  /-- Whether the key of a value may be left out together with its mark. -/
  bareValues : Bool
  /-- Whether every node with a name gets a number of its own, also if the name is given again. -/
  ownNumbers : Bool
  deriving BEq, DecidableEq, Repr

/-- The version 1.1 of the language. A name that is given again is still one name, so nodes may
share a number. -/
def Dialect.v11 : Dialect := ⟨false, false⟩

/-- The version 1.2 of the language. -/
def Dialect.v12 : Dialect := ⟨true, true⟩

/-- The tokens that are left and what the nodes before them have named. -/
structure Parser where
  dialect : Dialect
  tokens : List Token
  /-- The numbers of the names, latest first. -/
  anchors : List (String × Nat) := []
  /-- What the handles of tags stand for in this document. -/
  handles : List (String × List UInt8) := []

namespace Parser

/-- The next token. -/
def peek (parser : Parser) : Token :=
  parser.tokens.headD .streamEnd

/-- The state after the next token. -/
def skip (parser : Parser) : Parser :=
  { parser with tokens := parser.tokens.tail }

/-- The tag that a handle and a suffix make. -/
def fullTag (parser : Parser) (handle : String) (suffix : List UInt8) : Except Problem Tag :=
  match parser.handles.find? fun entry => entry.1 == handle with
  | some (_, stem) => .ok ⟨stem, suffix⟩
  | none => .error .tag

/-- What may stand in front of a node. -/
structure Properties where
  anchor : Option String := none
  tag : Option Tag := none

/-- Reads an anchor and a tag, at most one of each, in any order. -/
def readProperties (parser : Parser) : Except Problem (Properties × Parser) := do
  match parser.peek with
  | .anchor name =>
      let next := parser.skip
      match next.peek with
      | .tag handle suffix =>
          return ({ anchor := name, tag := ← parser.fullTag handle suffix }, next.skip)
      | _ => return ({ anchor := name }, next)
  | .tag handle suffix =>
      let tag ← parser.fullTag handle suffix
      let next := parser.skip
      match next.peek with
      | .anchor name => return ({ anchor := name, tag := tag }, next.skip)
      | _ => return ({ tag := tag }, next)
  | _ => return ({}, parser)

/-- Gives a node its number if it has a name: the number of names that are known before. -/
def register (parser : Parser) (properties : Properties) : Option Nat × Parser :=
  match properties.anchor with
  | some name =>
      let number := parser.anchors.length
      let others := parser.anchors.filter fun entry => parser.dialect.ownNumbers || entry.1 != name
      (some number, { parser with anchors := (name, number) :: others })
  | none => (none, parser)

/-- Whether a token may not follow a dash as its item, a mark of a key as its key, and so on: the
item, key or value is left out. -/
def leavesOut (ends : List Token) (parser : Parser) : Bool :=
  ends.contains parser.peek

mutual

/-- Reads a node. `block` tells whether block collections may stand here, and `dashes` whether a
sequence may stand here whose dashes are not indented. -/
def readNode (fuel : Nat) (block dashes : Bool) (parser : Parser) :
    Except Problem (Node × Parser) :=
  match fuel with
  | 0 => .error .node
  | fuel + 1 =>
    match parser.peek with
    | .alias name =>
        match parser.anchors.find? fun entry => entry.1 == name with
        | some (_, number) => .ok (.alias number, parser.skip)
        | none => .error .alias
    | _ => do
        let (properties, parser) ← parser.readProperties
        let named := properties.anchor.isSome || properties.tag.isSome
        let (number, next) := parser.register properties
        let tag := properties.tag
        match parser.peek with
        | .scalar text plain => return (.scalar number tag text plain, next.skip)
        | .blockEntry =>
            if dashes then
              let (items, next) ← readDashes fuel next
              return (.sequence number tag items, next)
            else if named then return (.scalar number tag "" true, next)
            else throw .node
        | .flowSequenceStart =>
            let (items, next) ← readFlowItems fuel true next.skip
            return (.sequence number tag items, next)
        | .flowMappingStart =>
            let (entries, next) ← readFlowEntries fuel true next.skip
            return (.mapping number tag entries, next)
        | .blockSequenceStart =>
            if block then
              let (items, next) ← readBlockItems fuel next.skip
              return (.sequence number tag items, next)
            else if named then return (.scalar number tag "" true, next)
            else throw .node
        | .blockMappingStart =>
            if block then
              let (entries, next) ← readBlockEntries fuel next.skip
              return (.mapping number tag entries, next)
            else if named then return (.scalar number tag "" true, next)
            else throw .node
        | _ =>
            if named then return (.scalar number tag "" true, next)
            else throw .node

/-- Reads the items of a sequence whose dashes are not indented. -/
def readDashes (fuel : Nat) (parser : Parser) : Except Problem (List Node × Parser) :=
  match fuel with
  | 0 => .error .node
  | fuel + 1 =>
    match parser.peek with
    | .blockEntry => do
        let (item, next) ←
          readUnless fuel true false [.blockEntry, .key, .value, .blockEnd] parser.skip
        let (items, next) ← readDashes fuel next
        return (item :: items, next)
    | _ => .ok ([], parser)

/-- Reads the items of a block sequence. -/
def readBlockItems (fuel : Nat) (parser : Parser) : Except Problem (List Node × Parser) :=
  match fuel with
  | 0 => .error .node
  | fuel + 1 =>
    match parser.peek with
    | .blockEntry => do
        let (item, next) ← readUnless fuel true false [.blockEntry, .blockEnd] parser.skip
        let (items, next) ← readBlockItems fuel next
        return (item :: items, next)
    | .blockEnd => .ok ([], parser.skip)
    | _ => .error .node

/-- Reads the keys and values of a block mapping. -/
def readBlockEntries (fuel : Nat) (parser : Parser) :
    Except Problem (List (Node × Node) × Parser) :=
  match fuel with
  | 0 => .error .node
  | fuel + 1 =>
    match parser.peek with
    | .blockEnd => .ok ([], parser.skip)
    | .key => do
        let (key, next) ← readUnless fuel true true [.key, .value, .blockEnd] parser.skip
        let (value, next) ← readBlockValue fuel next
        let (entries, next) ← readBlockEntries fuel next
        return ((key, value) :: entries, next)
    | .value =>
        if parser.dialect.bareValues then do
          let (value, next) ← readBlockValue fuel parser
          let (entries, next) ← readBlockEntries fuel next
          return ((Node.empty, value) :: entries, next)
        else .error .node
    | _ => .error .node

/-- Reads the value of a block mapping, if there is one. -/
def readBlockValue (fuel : Nat) (parser : Parser) : Except Problem (Node × Parser) :=
  match fuel with
  | 0 => .error .node
  | fuel + 1 =>
    match parser.peek with
    | .value => readUnless fuel true true [.key, .value, .blockEnd] parser.skip
    | _ => .ok (Node.empty, parser)

/-- Reads the items of a flow sequence. -/
def readFlowItems (fuel : Nat) (first : Bool) (parser : Parser) :
    Except Problem (List Node × Parser) :=
  match fuel with
  | 0 => .error .node
  | fuel + 1 =>
    match parser.peek with
    | .flowSequenceEnd => .ok ([], parser.skip)
    | token => do
        if !first && token != .flowEntry then throw .node
        let parser := if first then parser else parser.skip
        match parser.peek with
        | .flowSequenceEnd => return ([], parser.skip)
        | .key =>
            let (entry, next) ← readPair fuel parser.skip
            let (items, next) ← readFlowItems fuel false next
            return (.mapping none none [entry] :: items, next)
        | _ =>
            let (item, next) ← readNode fuel false false parser
            let (items, next) ← readFlowItems fuel false next
            return (item :: items, next)

/-- Reads a mapping of one entry in a flow sequence, after the mark of its key. -/
def readPair (fuel : Nat) (parser : Parser) : Except Problem ((Node × Node) × Parser) :=
  match fuel with
  | 0 => .error .node
  | fuel + 1 => do
    let (key, next) ←
      if parser.leavesOut [.value, .flowEntry, .flowSequenceEnd] then
        pure (Node.empty, parser.skip)
      else readNode fuel false false parser
    let (value, next) ← readFlowValue fuel [.flowEntry, .flowSequenceEnd] next
    return ((key, value), next)

/-- Reads the keys and values of a flow mapping. -/
def readFlowEntries (fuel : Nat) (first : Bool) (parser : Parser) :
    Except Problem (List (Node × Node) × Parser) :=
  match fuel with
  | 0 => .error .node
  | fuel + 1 =>
    match parser.peek with
    | .flowMappingEnd => .ok ([], parser.skip)
    | token => do
        if !first && token != .flowEntry then throw .node
        let parser := if first then parser else parser.skip
        match parser.peek with
        | .flowMappingEnd => return ([], parser.skip)
        | .key =>
            let ends := [.flowEntry, .flowMappingEnd]
            let (key, next) ← readUnless fuel false false (.value :: ends) parser.skip
            let (value, next) ← readFlowValue fuel ends next
            let (entries, next) ← readFlowEntries fuel false next
            return ((key, value) :: entries, next)
        | token =>
            if token == .value && parser.dialect.bareValues then
              let (value, next) ← readFlowValue fuel [.flowEntry, .flowMappingEnd] parser
              let (entries, next) ← readFlowEntries fuel false next
              return ((Node.empty, value) :: entries, next)
            else
              let (key, next) ← readNode fuel false false parser
              let (entries, next) ← readFlowEntries fuel false next
              return ((key, Node.empty) :: entries, next)

/-- Reads the value of a flow mapping, if there is one. -/
def readFlowValue (fuel : Nat) (ends : List Token) (parser : Parser) :
    Except Problem (Node × Parser) :=
  match fuel with
  | 0 => .error .node
  | fuel + 1 =>
    match parser.peek with
    | .value => readUnless fuel false false ends parser.skip
    | _ => .ok (Node.empty, parser)

/-- Reads a node unless a token comes that shows that it was left out. -/
def readUnless (fuel : Nat) (block dashes : Bool) (ends : List Token) (parser : Parser) :
    Except Problem (Node × Parser) :=
  match fuel with
  | 0 => .error .node
  | fuel + 1 =>
    if parser.leavesOut ends then .ok (Node.empty, parser)
    else readNode fuel block dashes parser

end

/-! ## Documents -/

/-- The handles that every document knows. A tag that is written out in full has none. -/
def commonHandles : List (String × List UInt8) :=
  [("", []), ("!", [0x21]), ("!!", Tag.commonStem)]

/-- Reads the directives of a document: at most one version, which must be 1.1 or 1.2, and at most
one meaning for each handle. -/
def readDirectives (parser : Parser) (versionSeen : Bool)
    (handles : List (String × List UInt8)) :
    List Token → Except Problem Parser
  | .version major minor :: rest =>
      if versionSeen || major != 1 || (minor != 1 && minor != 2) then .error .directive
      else readDirectives parser true handles rest
  | .tagDirective handle stem :: rest =>
      if handles.any fun entry => entry.1 == handle then .error .directive
      else readDirectives parser versionSeen (handles ++ [(handle, stem)]) rest
  | tokens => .ok { parser with tokens := tokens, handles := handles ++ commonHandles }

/-- The state at the start of a document: names do not reach over its end. -/
def freshDocument (parser : Parser) : Except Problem Parser :=
  readDirectives { parser with anchors := [] } false [] parser.tokens

/-- Reads the content of a document, which may be missing. -/
def readContent (parser : Parser) : Except Problem (Document × Parser) := do
  match parser.peek with
  | .version .. | .tagDirective .. | .documentStart | .documentEnd | .streamEnd =>
      return (.ofRoot Node.empty, parser)
  | _ =>
      let (root, next) ← readNode (8 * parser.tokens.length + 8) true false parser
      return (.ofRoot root, next)

/-- The state after the marks of ends of documents. -/
def skipEnds (parser : Parser) : Parser :=
  { parser with tokens := parser.tokens.dropWhile (· == .documentEnd) }

/-- Reads documents to the end of the text. Only the first one may go without a mark at its
start. -/
def readDocuments (first : Bool) (parser : Parser) (fuel : Nat) :
    Except Problem (List Document) :=
  match fuel with
  | 0 => .error .node
  | fuel + 1 => do
      let parser := if first then parser else parser.skipEnds
      match parser.peek with
      | .streamEnd => return []
      | token =>
          let marked := match token with
            | .version .. | .tagDirective .. | .documentStart => true
            | _ => false
          let parser ← parser.freshDocument
          let (document, next) ←
            if marked then
              if parser.peek == .documentStart then parser.skip.readContent else throw .directive
            else if first then do
              let (root, next) ← readNode (8 * parser.tokens.length + 8) true false parser
              pure (Document.ofRoot root, next)
            else throw .node
          let documents ← readDocuments false next fuel
          return document :: documents

end Parser

/-- The documents of a text. -/
def Document.ofText (text : String) : Except Problem (List Document) := do
  let tokens ← Token.ofText text
  Parser.readDocuments true { dialect := .v11, tokens := tokens } (tokens.length + 2)

end Scan.Yaml
