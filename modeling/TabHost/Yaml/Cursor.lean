/-!
# Places in a YAML text

The structure of a YAML text lies in its columns. A `Cursor` is the rest of a text with
the place where it begins. Every way to end a line but two is written as a line feed
before a text is looked at (`unifyLines`); the two are the separators of lines and of
paragraphs, which a scalar keeps. `skip` passes over blanks, line ends and comments to
the next thing that counts.
-/

namespace TabHost

namespace Yaml

/-! ## Characters -/

/-- Blanks, which part words on a line. -/
def isBlank (c : Char) : Bool := c = ' ' || c = '\t'

/-- Characters that end a line. -/
def isBreak (c : Char) : Bool := c = '\n' || c = '\u2028' || c = '\u2029'

def isSpace (c : Char) : Bool := isBlank c || isBreak c

/-- Whether nothing, a blank or a line end follows. -/
def spaceNext : List Char → Bool
  | [] => true
  | c :: _ => isSpace c

/-- Whether nothing or a line end follows. -/
def lineEndNext : List Char → Bool
  | [] => true
  | c :: _ => isBreak c

/-- Characters of names: those of anchors, directives and the handles of tags. -/
def isNameChar (c : Char) : Bool := c.isAlphanum || c = '-' || c = '_'

/-- The mark of byte order. It may stand at the start of any line. -/
def byteOrderMark : Char := '\uFEFF'

/-- Whether a character may stand in a YAML text. -/
def isAllowed (c : Char) : Bool :=
  let n := c.toNat
  n = 0x09 || n = 0x0A || n = 0x0D || (0x20 ≤ n && n ≤ 0x7E) || n = 0x85 ||
    (0xA0 ≤ n && n ≤ 0xD7FF) || (0xE000 ≤ n && n ≤ 0xFFFD) || 0x10000 ≤ n

/-- A text whose lines end with line feeds or separators. -/
def unifyLines : List Char → List Char
  | [] => []
  | '\r' :: '\n' :: rest => '\n' :: unifyLines rest
  | c :: rest => (if c = '\r' || c = '\u0085' then '\n' else c) :: unifyLines rest

/-! ## Cursors -/

/-- The rest of a text and where it begins. -/
structure Cursor where
  rest : List Char
  /-- How many octets stand before it. -/
  index : Nat := 0
  line : Nat := 0
  column : Nat := 0

namespace Cursor

/-- How many octets write so many characters behind a cursor. -/
def octets (n : Nat) (c : Cursor) : Nat :=
  (c.rest.take n).foldr (fun ch size => ch.utf8Size + size) 0

/-- The cursor behind so many characters of a line, before the rest that is left. -/
def advance (n : Nat) (rest : List Char) (c : Cursor) : Cursor :=
  { c with rest := rest, index := c.index + c.octets n, column := c.column + n }

/-- The cursor behind a line end, before the rest that is left. -/
def newLine (rest : List Char) (c : Cursor) : Cursor :=
  { rest := rest, index := c.index + c.octets 1, line := c.line + 1, column := 0 }

/-- The cursor behind so many characters of a line. -/
def drop (n : Nat) (c : Cursor) : Cursor := c.advance n (c.rest.drop n)

/-- The characters of a line up to the first that is not of a kind, and the cursor behind
them. -/
def span (p : Char → Bool) (c : Cursor) : List Char × Cursor :=
  let run := c.rest.takeWhile p
  (run, c.drop run.length)

/-- Passes over blanks. -/
def skipBlanks (c : Cursor) : Cursor := (c.span isBlank).2

/-- Passes over a comment, if one begins here. -/
def skipComment (c : Cursor) : Cursor :=
  if c.rest.head? = some '#' then (c.span fun ch => !isBreak ch).2 else c

/-- Passes to the next line: none where the rest of the line holds more than blanks and a
comment. -/
def endLine? (c : Cursor) : Option Cursor :=
  let c := c.skipBlanks.skipComment
  match c.rest with
  | [] => some c
  | ch :: rest => if isBreak ch then some (c.newLine rest) else none

/-- Whether a document begins or ends here. -/
def atMarker (c : Cursor) : Bool :=
  match c.column, c.rest with
  | 0, '-' :: '-' :: '-' :: rest => spaceNext rest
  | 0, '.' :: '.' :: '.' :: rest => spaceNext rest
  | _, _ => false

/-- Passes over blanks, line ends and comments, through the rest `cs`, in a comment or
not. Tabs count as blanks inside of brackets, and outside of them where no key may begin;
a new line outside of brackets may begin with a key. The first part of the answer tells
whether a key may begin behind. -/
def skipFrom (inFlow : Bool) : Bool → Bool → Cursor → List Char → Bool × Cursor
  | _, keyAllowed, c, [] => (keyAllowed, { c with rest := [] })
  | comment, keyAllowed, c, ch :: rest =>
    if isBreak ch then skipFrom inFlow false (keyAllowed || !inFlow) (c.newLine rest) rest
    else if comment || ch = '#' then skipFrom inFlow true keyAllowed (c.advance 1 rest) rest
    else if ch = ' ' || (ch = '\t' && (inFlow || !keyAllowed)) ||
        (ch = byteOrderMark && c.column = 0) then
      skipFrom inFlow false keyAllowed (c.advance 1 rest) rest
    else (keyAllowed, { c with rest := ch :: rest })

/-- Passes over blanks, line ends and comments, and tells whether a key may begin behind
them. -/
def skip (inFlow keyAllowed : Bool) (c : Cursor) : Bool × Cursor :=
  skipFrom inFlow false keyAllowed c c.rest

end Cursor

end Yaml

end TabHost
