import TabHost.Yaml.Gap

/-!
# Plain scalars

A scalar without quotes ends where structure begins: at a colon with a blank behind it,
at a comment, at a bracket or comma inside of brackets, at the marker of a document, and
where a line is indented less than it must be.
-/

namespace TabHost

namespace Yaml

/-- Characters that have a meaning of their own inside brackets. -/
def isFlowIndicator (c : Char) : Bool :=
  c = ',' || c = '[' || c = ']' || c = '{' || c = '}'

/-- Characters that no plain scalar begins with, unless `-`, `?` or `:` is part of a
word. -/
def isIndicator (c : Char) : Bool :=
  isFlowIndicator c ||
    ['-', '?', ':', '#', '&', '*', '!', '|', '>', '\'', '"', '%', '@', '`'].contains c

/-- Whether a plain scalar can begin with a text. -/
def startsPlain (inFlow : Bool) : List Char → Bool
  | [] => false
  | c :: rest =>
    if c = '-' then !spaceNext rest
    else if c = '?' || c = ':' then !inFlow && !spaceNext rest
    else !isIndicator c && !isSpace c

/-- The word of a plain scalar that a text begins with: none where a colon stands before a
bracket, a comma or a question mark inside of brackets. -/
def plainWord (inFlow : Bool) : List Char → Option (List Char)
  | [] => some []
  | c :: rest =>
    if isSpace c then some []
    else if inFlow && c = ':' && rest.head?.any fun d => isFlowIndicator d || d = '?' then none
    else if (c = ':' && spaceNext rest) || (inFlow && isFlowIndicator c) then some []
    else (plainWord inFlow rest).map fun word => c :: word

/-- A plain scalar from the gap in front of one of its words on, within a number of steps:
its text, whether a line ends behind it before anything else comes, and the cursor behind
it and its blanks. -/
def plainFrom (inFlow : Bool) (indentation : Nat) :
    Nat → Gap → Cursor → Option (List Char × Bool × Cursor)
  | 0, _, _ => none
  | steps + 1, gap, c =>
    if c.atMarker || c.rest.head? = some '#' then some ([], gap.isBroken, c)
    else
      (plainWord inFlow c.rest).bind fun word =>
        if word.isEmpty then some ([], gap.isBroken, c)
        else
          (Gap.read indentation (c.drop word.length)).bind fun (next, behind) =>
            let text := gap.text ++ word
            if !inFlow && behind.column < indentation then
              some (text, next.isBroken, behind)
            else
              (plainFrom inFlow indentation steps next behind).map fun r => (text ++ r.1, r.2)

/-- A plain scalar whose further lines have at least an indentation. -/
def plain (inFlow : Bool) (indentation steps : Nat) (c : Cursor) :
    Option (List Char × Bool × Cursor) :=
  plainFrom inFlow indentation steps (.blanks []) c

end Yaml

end TabHost
