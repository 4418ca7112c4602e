import TabHost.Yaml.Anchors
import TabHost.Yaml.Layout

/-!
# Documents of YAML

`Yaml.read` reads a text that holds at most one YAML document: none where the text is
faulty or holds a second document. A text without content is a document with the empty
node.
-/

namespace TabHost

namespace Yaml

/-- A document, whose aliases are numbers of its anchors. -/
structure Document where
  root : Node Nat
  anchors : Anchors := {}

/-- A scalar as it stands in a document. -/
structure Scalar where
  tag : Option (List Char)
  style : Style
  text : List Char

/-- The scalar that a node is or refers to. -/
def Document.scalar? (d : Document) : Node Nat → Option Scalar
  | .scalar p style text => some { tag := p.tag, style, text }
  | .alias n =>
    match d.anchors.node? n with
    | some (.scalar p style text) => some { tag := p.tag, style, text }
    | _ => none
  | _ => none

/-! ## Directives -/

/-- The handles of tags that need no declaration. -/
def defaultHandles : Node.Handles := [(['!'], ['!']), (['!', '!'], "tag:yaml.org,2002:".toList)]

/-- The handles that the directives of a document declare, and the tokens behind them: none
if a version is named twice or is not known, or a handle is declared twice. -/
def directives : Bool → Node.Handles → List Token → Option (Node.Handles × List Token)
  | versioned, handles, .version major minor :: rest =>
    if versioned || major ≠ 1 || (minor ≠ 1 && minor ≠ 2) then none
    else directives true handles rest
  | versioned, handles, .tagHandle handle start :: rest =>
    if handles.any fun h => h.1 = handle then none
    else directives versioned (handles ++ [(handle, start)]) rest
  | _, handles, tokens => some (handles, tokens)

/-! ## Reading -/

/-- Tokens before which a document begins or ends. -/
def atBoundary : List Token → Bool
  | [] => true
  | t :: _ =>
    match t with
    | .version _ _ => true
    | .tagHandle _ _ => true
    | .documentStart => true
    | .documentEnd => true
    | .streamEnd => true
    | _ => false

/-- The node of the first document among tokens, and the tokens behind it. -/
def firstNode (tokens : List Token) : Option (Named × List Token) :=
  let steps := 4 * tokens.length + 8
  match tokens with
  | .streamEnd :: _ => some (.empty, tokens)
  | .documentEnd :: _ => none
  | _ =>
    if atBoundary tokens then
      (directives false [] tokens).bind fun (handles, tokens) =>
        match tokens with
        | .documentStart :: rest =>
          if atBoundary rest then some (.empty, rest)
          else Node.read (handles ++ defaultHandles) true false steps rest
        | _ => none
    else Node.read defaultHandles true false steps tokens

/-- Whether nothing but ends of documents follows. -/
def isOver : List Token → Bool
  | .documentEnd :: rest => isOver rest
  | [.streamEnd] => true
  | _ => false

/-- The document of tokens. -/
def Document.ofTokens? (tokens : List Token) : Option Document :=
  (firstNode tokens).bind fun (v, rest) =>
    if isOver rest then (v.numbered {}).map fun r => { root := r.1, anchors := r.2 } else none

/-- The document of a text. -/
def read (cs : List Char) : Option Document :=
  if cs.all isAllowed then (Token.ofText? (unifyLines cs)).bind Document.ofTokens? else none

end Yaml

end TabHost
