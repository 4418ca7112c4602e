import TabHost.Yaml.Cursor

/-!
# Gaps between words

The white space between two words of a scalar. On one line it is kept; where lines end in
it, one line feed is read as a blank, further ones are kept, and blanks do not count.
-/

namespace TabHost

namespace Yaml

/-- The white space between two words of a scalar. -/
inductive Gap where
  /-- Blanks on one line. -/
  | blanks (cs : List Char)
  /-- The line ends, the first one apart; an escaped one is none. -/
  | lines (first : Option Char) (further : List Char)

namespace Gap

/-- Whether a line ends in a gap. -/
def isBroken : Gap → Bool
  | .blanks _ => false
  | .lines _ _ => true

/-- What a gap is read as. -/
def text : Gap → List Char
  | .blanks cs => cs
  | .lines none further => further
  | .lines (some ch) further =>
    if ch ≠ '\n' then ch :: further
    else if further.isEmpty then [' ']
    else further

/-- The line ends in the white space at a cursor, whose rest is `cs`, and the cursor behind
it: none where a tab stands in the indentation, which is so many columns wide. -/
def lineEnds (indentation : Nat) : Cursor → List Char → Option (List Char × Cursor)
  | c, [] => some ([], { c with rest := [] })
  | c, ch :: rest =>
    if isBreak ch then
      (lineEnds indentation (c.newLine rest) rest).map fun r => (ch :: r.1, r.2)
    else if isBlank ch then
      if ch = '\t' && c.column < indentation then none
      else lineEnds indentation (c.advance 1 rest) rest
    else some ([], { c with rest := ch :: rest })

/-- The gap behind an escaped line end, and the cursor behind it. -/
def readEscaped (c : Cursor) : Option (Gap × Cursor) :=
  (lineEnds 0 c c.rest).map fun r => (.lines none r.1, r.2)

/-- The gap at a cursor and the cursor behind it: none where a tab stands in the
indentation. -/
def read (indentation : Nat) (c : Cursor) : Option (Gap × Cursor) :=
  let (run, behind) := c.span isBlank
  match behind.rest with
  | [] => some (.blanks run, behind)
  | ch :: rest =>
    if isBreak ch then
      (lineEnds indentation (behind.newLine rest) rest).map fun r => (.lines (some ch) r.1, r.2)
    else some (.blanks run, behind)

end Gap

end Yaml

end TabHost
