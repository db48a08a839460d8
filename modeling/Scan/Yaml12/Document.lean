import Scan.Yaml.Node.Parser
import Scan.Yaml12.Lexer

/-!
# The document of a YAML 1.2 text

A text may hold one document or none. Directives stand in front of it, and of those that say what a
handle of a tag stands for only the last one is heeded.
-/

namespace Scan.Yaml12

open Yaml (Problem Token Node Document Parser)

/-- Reads the directives of a document, at most one of them a version. -/
def readDirectives (parser : Parser) (versionSeen : Bool)
    (handles : List (String × List UInt8)) : List Token → Except Problem Parser
  | .version .. :: rest =>
      if versionSeen then .error .directive else readDirectives parser true [] rest
  | .tagDirective handle stem :: rest =>
      readDirectives parser versionSeen [(handle, stem)] rest
  | tokens => .ok { parser with tokens, handles := handles ++ Parser.commonHandles }

/-- Whether a token may not stand in a document. -/
def endsContent : Token → Bool
  | .version .. | .tagDirective .. | .documentStart | .documentEnd | .streamEnd => true
  | _ => false

/-- Reads the content of a document, which may be missing after a mark of its start. -/
def readContent (marked : Bool) (parser : Parser) : Except Problem (Node × Parser) :=
  if marked && endsContent parser.peek then .ok (Node.empty, parser)
  else parser.readNode (8 * parser.tokens.length + 8) true false

/-- The document of a text, if there is one. -/
def documentOf (text : String) : Except Problem (Option Document) := do
  let parser := Parser.skipEnds { dialect := .v12, tokens := ← tokensOf text }
  if parser.peek == .streamEnd then return none
  let marked := endsContent parser.peek
  let parser ← readDirectives parser false [] parser.tokens
  if marked && parser.peek != .documentStart then throw .directive
  let (root, next) ← readContent marked (if marked then parser.skip else parser)
  if next.skipEnds.peek == .streamEnd then return some (.ofRoot root) else throw .node

end Scan.Yaml12
