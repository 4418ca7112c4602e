import TabHost.Yaml.Block
import TabHost.Yaml.Name
import TabHost.Yaml.Plain
import TabHost.Yaml.Quoted
import TabHost.Yaml.Token

/-!
# Layout

From the columns of a text to its tokens. Block collections are open as long as what
follows is indented deeper than the collection around them. That something is a key shows
only when its colon comes, so the place of the last token that can begin a key is kept,
for the block and for each pair of brackets; the colon must stand on the same line and at
most `keyLength` octets behind. Outside of brackets, in the column of a mapping,
nothing but a key may stand.
-/

namespace TabHost

namespace Yaml

/-- A place where a key may have begun. -/
structure KeyPlace where
  /-- How many tokens stand before it. -/
  tokens : Nat
  index : Nat
  line : Nat
  column : Nat
  /-- Whether nothing but a key may stand here. -/
  required : Bool

/-- How many octets a key may reach. -/
def keyLength : Nat := 1024

/-- Whether the colon of a key comes too late. -/
def KeyPlace.isPast (c : Cursor) (k : KeyPlace) : Bool :=
  k.line < c.line || k.index + keyLength < c.index

/-- The tokens of the text before a cursor, and what is open there. -/
structure Layout where
  cursor : Cursor
  /-- The tokens so far, the last one first. -/
  tokens : List Token := []
  /-- How many tokens there are. -/
  count : Nat := 0
  /-- For each open block collection the column behind the one of its entries, the
  innermost collection first. -/
  margins : List Nat := []
  /-- Where a key may have begun inside of the innermost brackets. -/
  key : Option KeyPlace := none
  /-- Where a key may have begun around the innermost brackets, the inner ones first. -/
  outerKeys : List (Option KeyPlace) := []
  /-- Whether a key may begin with the next token. -/
  keyAllowed : Bool := true
  /-- Whether the text is over. -/
  ended : Bool := false

namespace Layout

def inFlow (l : Layout) : Bool := !l.outerKeys.isEmpty

/-- The column behind the one of the entries of the innermost block collection. -/
def margin (l : Layout) : Nat := l.margins.headD 0

/-! ## Tokens and collections -/

def push (t : Token) (l : Layout) : Layout :=
  { l with tokens := t :: l.tokens, count := l.count + 1 }

/-- Puts a token behind the first `n` ones. -/
def insert (n : Nat) (t : Token) (l : Layout) : Layout :=
  let late := l.count - n
  { l with tokens := l.tokens.take late ++ t :: l.tokens.drop late, count := l.count + 1 }

/-- Opens a block collection whose entries stand in a column, with a token behind the first
`n` ones, if that column is deeper than the innermost collection. -/
def openBlock (column n : Nat) (t : Token) (l : Layout) : Layout :=
  if l.inFlow || column < l.margin then l
  else { l.insert n t with margins := (column + 1) :: l.margins }

/-- Closes the block collections whose entries stand in the column `limit` or behind it. -/
def closeBlocks (limit : Nat) (l : Layout) : Layout :=
  if l.inFlow then l
  else
    let closed := l.margins.takeWhile (limit < ·)
    { closed.foldl (fun l _ => l.push .blockEnd) l with margins := l.margins.drop closed.length }

/-! ## Keys -/

/-- Gives up the place where a key may have begun: none where it had to. -/
def dropKey (l : Layout) : Option Layout :=
  if l.key.any (·.required) then none else some { l with key := none }

/-- Keeps the place of the next token, if a key may begin with it. -/
def saveKey (l : Layout) : Option Layout :=
  if l.keyAllowed then
    l.dropKey.map fun l =>
      let c := l.cursor
      { l with
        key := some
          { tokens := l.count, index := c.index, line := c.line, column := c.column
            required := !l.inFlow && l.margin = c.column + 1 } }
  else some l

/-- Gives up the places whose colon comes too late: none where a key had to be. -/
def dropPastKeys (l : Layout) : Option Layout :=
  let past := KeyPlace.isPast l.cursor
  if (l.key :: l.outerKeys).any fun k => k.any fun k => k.required && past k then none
  else
    let keep (k : Option KeyPlace) : Option KeyPlace := k.filter fun k => !past k
    some { l with key := keep l.key, outerKeys := l.outerKeys.map keep }

/-! ## One token after the other -/

/-- The end of the text. -/
def finish (l : Layout) : Option Layout :=
  (l.closeBlocks 0).dropKey.map fun l => { l.push .streamEnd with ended := true }

/-- A token that stands for itself and is so many characters long. -/
def take (length : Nat) (t : Token) (keyAllowed : Bool) (l : Layout) : Layout :=
  { l.push t with cursor := l.cursor.drop length, keyAllowed }

/-- What begins a line of its own outside of all collections. -/
def outermost (l : Layout) : Option Layout := (l.closeBlocks 0).dropKey

/-- An opening bracket. -/
def openFlow (t : Token) (l : Layout) : Option Layout :=
  l.saveKey.map fun l =>
    { l.take 1 t true with key := none, outerKeys := l.key :: l.outerKeys }

/-- A closing bracket. -/
def closeFlow (t : Token) (l : Layout) : Option Layout :=
  l.dropKey.map fun l =>
    let l := l.take 1 t false
    match l.outerKeys with
    | [] => l
    | key :: outer => { l with key, outerKeys := outer }

/-- The dash before an item. -/
def entry (l : Layout) : Option Layout :=
  if !l.inFlow && !l.keyAllowed then none
  else
    (l.openBlock l.cursor.column l.count .sequenceStart).dropKey.map fun l => l.take 1 .entry true

/-- The question mark before a key. -/
def questionMark (l : Layout) : Option Layout :=
  if !l.inFlow && !l.keyAllowed then none
  else
    (l.openBlock l.cursor.column l.count .mappingStart).dropKey.map fun l =>
      l.take 1 .key (!l.inFlow)

/-- The colon behind a key. If it was not told before that the key is one, it is now. -/
def colon (l : Layout) : Option Layout :=
  match l.key with
  | some k =>
    let l := (l.insert k.tokens .key).openBlock k.column k.tokens .mappingStart
    some ({ l with key := none }.take 1 .value false)
  | none =>
    if !l.inFlow && !l.keyAllowed then none
    else
      let l := l.openBlock l.cursor.column l.count .mappingStart
      some (l.take 1 .value (!l.inFlow))

/-- Something that may begin a key, read from the cursor on. -/
def node (read : Cursor → Option (Token × Cursor)) (l : Layout) : Option Layout :=
  l.saveKey.bind fun l =>
    (read l.cursor).map fun (t, c) => { l.push t with cursor := c, keyAllowed := false }

/-- A quoted scalar. -/
def quotedNode (q : Quote) (steps : Nat) (l : Layout) : Option Layout :=
  l.node fun c => (quoted q steps (c.drop 1)).map fun r => (.scalar .quoted r.1, r.2)

/-- A scalar without quotes. A key may begin on the line behind it. -/
def plainNode (steps : Nat) (l : Layout) : Option Layout :=
  l.saveKey.bind fun l =>
    (plain l.inFlow l.margin steps l.cursor).map fun (text, broken, c) =>
      { l.push (.scalar .plain text) with cursor := c, keyAllowed := broken }

/-- A block scalar. -/
def blockNode (folded : Bool) (steps : Nat) (l : Layout) : Option Layout :=
  l.dropKey.bind fun l =>
    (blockScalar folded l.margin steps (l.cursor.drop 1)).map fun (text, c) =>
      let style := if folded then Style.folded else .literal
      { l.push (.scalar style text) with cursor := c, keyAllowed := true }

/-- The token that begins at the cursor, within a number of steps. -/
def token (steps : Nat) (l : Layout) : Option Layout :=
  let c := l.cursor
  match c.rest with
  | [] => l.finish
  | ch :: rest =>
    if ch = '%' && c.column = 0 then
      l.outermost.bind fun l =>
        (directive steps c).map fun (t, c) => { l.push t with cursor := c, keyAllowed := false }
    else if c.atMarker then
      l.outermost.map (take 3 (if ch = '-' then .documentStart else .documentEnd) false)
    else
      let indicator := spaceNext rest
      match ch with
      | '[' => l.openFlow .flowSequenceStart
      | '{' => l.openFlow .flowMappingStart
      | ']' => l.closeFlow .flowSequenceEnd
      | '}' => l.closeFlow .flowMappingEnd
      | ',' => l.dropKey.map (take 1 .flowEntry true)
      | '*' => l.node fun c => (anchorName (c.drop 1)).map fun r => (.alias r.1, r.2)
      | '&' => l.node fun c => (anchorName (c.drop 1)).map fun r => (.anchor r.1, r.2)
      | '!' => l.node fun c => (tag l.inFlow steps c).map fun r => (.tag r.1, r.2)
      | '\'' => l.quotedNode .single steps
      | '"' => l.quotedNode .double steps
      | _ =>
        if ch = '-' && indicator then l.entry
        else if ch = '?' && (l.inFlow || indicator) then l.questionMark
        else if ch = ':' && (l.inFlow || indicator) then l.colon
        else if ch = '|' && !l.inFlow then l.blockNode false steps
        else if ch = '>' && !l.inFlow then l.blockNode true steps
        else if startsPlain l.inFlow c.rest then l.plainNode steps
        else none

/-- Passes to the next token and over it. -/
def next (steps : Nat) (l : Layout) : Option Layout :=
  let (keyAllowed, cursor) := l.cursor.skip l.inFlow l.keyAllowed
  { l with keyAllowed, cursor }.dropPastKeys.bind fun l =>
    (l.closeBlocks (cursor.column + 1)).token steps

/-- Passes over all tokens, within a number of steps. -/
def run : Nat → Layout → Option Layout
  | 0, _ => none
  | steps + 1, l => if l.ended then some l else (l.next (steps + 1)).bind (run steps)

end Layout

/-- The tokens of a text, if it has a layout. Each token is at least one character long. -/
def Token.ofText? (cs : List Char) : Option (List Token) :=
  (Layout.run (cs.length + 3) { cursor := { rest := cs } }).map fun l => l.tokens.reverse

end Yaml

end TabHost
