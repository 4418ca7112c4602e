import TabHost.Yaml.Cursor

/-!
# Block scalars

The lines of a block scalar are told by their indentation, which its header may give and
its first line with content tells otherwise. A folded block reads a single line end
between two lines as a blank, unless one of them begins with a blank.
-/

namespace TabHost

namespace Yaml

/-- What becomes of the line ends behind the last line of a block scalar. -/
inductive Chomping where
  /-- The first one is kept. -/
  | clip
  /-- None is kept. -/
  | strip
  /-- All are kept. -/
  | keep
  deriving DecidableEq

def Chomping.ofSign? : Char → Option Chomping
  | '+' => some .keep
  | '-' => some .strip
  | _ => none

/-- The line ends that are kept, of the first one and the further ones behind the last
line. -/
def Chomping.tail (first further : List Char) : Chomping → List Char
  | .clip => first
  | .strip => []
  | .keep => first ++ further

/-- The header of a block scalar: how it is chomped, and by how much it is indented, if
that is given. -/
structure BlockHeader where
  chomping : Chomping := .clip
  increment : Option Nat := none

/-- The header of a block scalar and the cursor behind it. Its two parts come in either
order, and the indentation is a digit that is not zero. -/
def blockHeader (c : Cursor) : Option (BlockHeader × Cursor) :=
  let digit (d : Char) : Option Nat := if d = '0' then none else some (d.toNat - '0'.toNat)
  match c.rest with
  | [] => some ({}, c)
  | s :: rest =>
    match Chomping.ofSign? s with
    | some chomping =>
      match rest.head?.filter Char.isDigit with
      | none => some ({ chomping }, c.drop 1)
      | some d => (digit d).map fun n => ({ chomping, increment := some n }, c.drop 2)
    | none =>
      if !s.isDigit then some ({}, c)
      else
        (digit s).map fun n =>
          match rest.head?.bind Chomping.ofSign? with
          | none => ({ increment := some n }, c.drop 1)
          | some chomping => ({ chomping, increment := some n }, c.drop 2)

/-- Passes over lines without content and the indentation of the next line, within a
number of steps: the line ends on the way, the widest indentation, given that of the
lines before, and the cursor behind. -/
def blankLines (indentation : Option Nat) :
    Nat → Nat → Cursor → Option (List Char × Nat × Cursor)
  | 0, _, _ => none
  | steps + 1, widest, c =>
    let spaces := (c.rest.takeWhile (· = ' ')).length
    let c := c.drop (indentation.elim spaces fun n => min spaces (n - c.column))
    let widest := max widest c.column
    match c.rest with
    | [] => some ([], widest, c)
    | ch :: rest =>
      if isBreak ch then
        (blankLines indentation steps widest (c.newLine rest)).map fun r => (ch :: r.1, r.2)
      else if ch = '\t' && indentation.all (c.column < ·) then none
      else some ([], widest, c)

/-- What the line ends between two lines of a block scalar are read as: `first` behind the
one line, `further` before the other, and `blank` if one of the two lines begins with a
blank. -/
def blockGap (folded blank : Bool) (first further : List Char) : List Char :=
  if folded && first = ['\n'] && !blank then
    if further.isEmpty then [' '] else further
  else first ++ further

/-- A block scalar from one of its lines on, within a number of steps: `blank` tells
whether the line before begins with a blank, `first` and `further` are the line ends
before. -/
def blockLines (folded : Bool) (chomping : Chomping) (indentation : Nat) :
    Nat → Bool → List Char → List Char → Cursor → Option (List Char × Cursor)
  | 0, _, _, _, _ => none
  | steps + 1, blank, first, further, c =>
    if c.column ≠ indentation || c.rest.isEmpty then some (chomping.tail first further, c)
    else
      let startsBlank := c.rest.head?.any isBlank
      let (line, behind) := c.span fun ch => !isBreak ch
      let next := match behind.rest with
        | [] => behind
        | _ :: rest => behind.newLine rest
      (blankLines (some indentation) (steps + 1) 0 next).bind fun (ends, _, next) =>
        (blockLines folded chomping indentation steps startsBlank
          (behind.rest.take 1) ends next).map fun r =>
            (blockGap folded (blank || startsBlank) first further ++ line ++ r.1, r.2)

/-- A block scalar behind its marker, within a number of steps, in a collection whose
entries stand in the column before `margin`. -/
def blockScalar (folded : Bool) (margin steps : Nat) (c : Cursor) :
    Option (List Char × Cursor) :=
  (blockHeader c).bind fun (header, c) =>
    c.endLine?.bind fun c =>
      let given := header.increment.map fun n => margin - 1 + n
      (blankLines given steps 0 c).bind fun (ends, widest, c) =>
        let indentation := given.getD (max widest (max margin 1))
        blockLines folded header.chomping indentation steps false [] ends c

end Yaml

end TabHost
