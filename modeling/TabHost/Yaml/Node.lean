import TabHost.Yaml.Token

/-!
# Nodes of YAML

From tokens to the nodes of a document. An alias is kept as a reference of a type that is
open; nodes as they are read refer to names.

A node that is missing is the empty scalar. Where `key` announces a pair inside of
brackets and what follows can be no key, the next token is passed over with it.
-/

namespace TabHost

namespace Yaml

/-- What stands in front of a node. -/
structure Properties where
  anchor : Option (List Char) := none
  /-- The tag, its handle resolved. -/
  tag : Option (List Char) := none

/-- A node with references of a type in place of its aliases. -/
inductive Node (ρ : Type) where
  | alias (reference : ρ)
  | scalar (properties : Properties) (style : Style) (text : List Char)
  | sequence (properties : Properties) (items : List (Node ρ))
  | mapping (properties : Properties) (members : List (Node ρ × Node ρ))

/-- Nodes as they are written. -/
abbrev Named := Node (List Char)

namespace Node

/-- The node where nothing is written. -/
def empty {ρ : Type} : Node ρ := .scalar {} .plain []

/-! ## Properties -/

/-- The handles of tags and what they stand for. -/
abbrev Handles := List (List Char × List Char)

/-- The tag that a handle and a suffix write: none if the handle was not declared. -/
def tagText? (handles : Handles) (t : Tag) : Option (List Char) :=
  if t.handle.isEmpty then some t.suffix
  else (handles.find? fun h => h.1 = t.handle).map fun h => h.2 ++ t.suffix

/-- At most one anchor and one tag in front of a node, in either order. -/
def properties (handles : Handles) : List Token → Option (Properties × List Token)
  | .anchor name :: .tag t :: rest =>
    (tagText? handles t).map fun text => ({ anchor := some name, tag := some text }, rest)
  | .tag t :: .anchor name :: rest =>
    (tagText? handles t).map fun text => ({ anchor := some name, tag := some text }, rest)
  | .anchor name :: rest => some ({ anchor := some name }, rest)
  | .tag t :: rest => (tagText? handles t).map fun text => ({ tag := some text }, rest)
  | rest => some ({}, rest)

/-! ## Reading -/

/-- Tokens before which a key or value in block form is missing. -/
def endsMember : List Token → Bool
  | .key :: _ => true
  | .value :: _ => true
  | .blockEnd :: _ => true
  | _ => false

/-- Tokens before which the value of a pair in a bracketed sequence is missing. -/
def endsItem : List Token → Bool
  | .flowEntry :: _ => true
  | .flowSequenceEnd :: _ => true
  | _ => false

/-- Tokens before which the value in a bracketed mapping is missing. -/
def endsFlowMember : List Token → Bool
  | .flowEntry :: _ => true
  | .flowMappingEnd :: _ => true
  | _ => false

/-- The tokens behind the comma that parts two items or members; none is before the first
one. -/
def behindComma (first : Bool) : List Token → Option (List Token)
  | tokens =>
    if first then some tokens
    else
      match tokens with
      | .flowEntry :: rest => some rest
      | _ => none

mutual

/-- A node, which may be a block collection or not. The items of a sequence may follow
without a token that opens it where the node is a key or value in block form. -/
def read (handles : Handles) (inBlock inMember : Bool) :
    Nat → List Token → Option (Named × List Token)
  | 0, _ => none
  | steps + 1, tokens =>
    match tokens with
    | .alias name :: rest => some (.alias name, rest)
    | _ =>
      (properties handles tokens).bind fun (p, tokens) =>
        match tokens with
        | .scalar style text :: rest => some (.scalar p style text, rest)
        | .flowSequenceStart :: rest =>
          (flowItems handles true steps rest).map fun r => (.sequence p r.1, r.2)
        | .flowMappingStart :: rest =>
          (flowMembers handles true steps rest).map fun r => (.mapping p r.1, r.2)
        | _ =>
          let missing : Option (Named × List Token) :=
            if p.anchor.isSome || p.tag.isSome then some (.scalar p .plain [], tokens) else none
          match inBlock, inMember, tokens with
          | _, true, .entry :: _ =>
            (looseItems handles steps tokens).map fun r => (.sequence p r.1, r.2)
          | true, _, .sequenceStart :: rest =>
            (items handles steps rest).map fun r => (.sequence p r.1, r.2)
          | true, _, .mappingStart :: rest =>
            (members handles steps rest).map fun r => (.mapping p r.1, r.2)
          | _, _, _ => missing

/-- The items of a sequence in block form. -/
def items (handles : Handles) : Nat → List Token → Option (List Named × List Token)
  | 0, _ => none
  | steps + 1, tokens =>
    match tokens with
    | .blockEnd :: rest => some ([], rest)
    | .entry :: rest =>
      let item := match rest with
        | .entry :: _ => some (empty, rest)
        | .blockEnd :: _ => some (empty, rest)
        | _ => read handles true false steps rest
      item.bind fun v => (items handles steps v.2).map fun r => (v.1 :: r.1, r.2)
    | _ => none

/-- The items of a sequence in the column of the key before it. -/
def looseItems (handles : Handles) : Nat → List Token → Option (List Named × List Token)
  | 0, _ => none
  | steps + 1, tokens =>
    match tokens with
    | .entry :: rest =>
      let item := match rest with
        | .entry :: _ => some (empty, rest)
        | _ => if endsMember rest then some (empty, rest) else read handles true false steps rest
      item.bind fun v => (looseItems handles steps v.2).map fun r => (v.1 :: r.1, r.2)
    | _ => some ([], tokens)

/-- The members of a mapping in block form. -/
def members (handles : Handles) : Nat → List Token → Option (List (Named × Named) × List Token)
  | 0, _ => none
  | steps + 1, tokens =>
    match tokens with
    | .blockEnd :: rest => some ([], rest)
    | .key :: rest =>
      (member handles steps rest).bind fun k =>
        let value := match k.2 with
          | .value :: rest => member handles steps rest
          | rest => some (empty, rest)
        value.bind fun v => (members handles steps v.2).map fun r => ((k.1, v.1) :: r.1, r.2)
    | _ => none

/-- A key or value in block form, which may be missing. -/
def member (handles : Handles) : Nat → List Token → Option (Named × List Token)
  | 0, _ => none
  | steps + 1, tokens =>
    if endsMember tokens then some (empty, tokens) else read handles true true steps tokens

/-- The items of a sequence in brackets. -/
def flowItems (handles : Handles) :
    Bool → Nat → List Token → Option (List Named × List Token)
  | _, 0, _ => none
  | first, steps + 1, tokens =>
    match tokens with
    | .flowSequenceEnd :: rest => some ([], rest)
    | _ =>
      (behindComma first tokens).bind fun tokens =>
        match tokens with
        | .flowSequenceEnd :: rest => some ([], rest)
        | _ =>
          let item : Option (Named × List Token) := match tokens with
            | .key :: rest => (flowPair handles steps rest).map fun r => (.mapping {} [r.1], r.2)
            | _ => read handles false false steps tokens
          item.bind fun v =>
            (flowItems handles false steps v.2).map fun r => (v.1 :: r.1, r.2)

/-- The one member of a mapping without braces that is an item of a sequence in
brackets. -/
def flowPair (handles : Handles) : Nat → List Token → Option ((Named × Named) × List Token)
  | 0, _ => none
  | steps + 1, tokens =>
    let key := match tokens with
      | .value :: rest => some (empty, rest)
      | t :: rest =>
        if endsItem tokens then some (empty, rest)
        else read handles false false steps (t :: rest)
      | [] => none
    key.bind fun k =>
      let value := match k.2 with
        | .value :: rest =>
          if endsItem rest then some (empty, rest) else read handles false false steps rest
        | rest => some (empty, rest)
      value.map fun v => ((k.1, v.1), v.2)

/-- The members of a mapping in braces. -/
def flowMembers (handles : Handles) :
    Bool → Nat → List Token → Option (List (Named × Named) × List Token)
  | _, 0, _ => none
  | first, steps + 1, tokens =>
    match tokens with
    | .flowMappingEnd :: rest => some ([], rest)
    | _ =>
      (behindComma first tokens).bind fun tokens =>
        match tokens with
        | .flowMappingEnd :: rest => some ([], rest)
        | _ =>
          (flowMember handles steps tokens).bind fun m =>
            (flowMembers handles false steps m.2).map fun r => (m.1 :: r.1, r.2)

/-- A member of a mapping in braces. What no key is announced for is a key without a
value. -/
def flowMember (handles : Handles) : Nat → List Token → Option ((Named × Named) × List Token)
  | 0, _ => none
  | steps + 1, tokens =>
    match tokens with
    | .key :: rest =>
      let key := match rest with
        | .value :: _ => some (empty, rest)
        | _ =>
          if endsFlowMember rest then some (empty, rest)
          else read handles false false steps rest
      key.bind fun k =>
        let value := match k.2 with
          | .value :: rest =>
            if endsFlowMember rest then some (empty, rest)
            else read handles false false steps rest
          | rest => some (empty, rest)
        value.map fun v => ((k.1, v.1), v.2)
    | _ => (read handles false false steps tokens).map fun k => ((k.1, empty), k.2)

end

end Node

end Yaml

end TabHost
