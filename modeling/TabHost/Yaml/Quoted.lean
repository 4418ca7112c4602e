import TabHost.Text.Hex
import TabHost.Yaml.Gap

/-!
# Quoted scalars

In single quotes a quote is written twice and nothing else is special. In double quotes a
backslash begins an escape, and before a line end it joins two lines without a blank.
-/

namespace TabHost

namespace Yaml

/-- The kinds of quotes. -/
inductive Quote where
  | single
  | double
  deriving DecidableEq

def Quote.mark : Quote → Char
  | .single => '\''
  | .double => '"'

/-! ## Escapes -/

/-- The character of a one-letter escape. -/
def escaped? : Char → Option Char
  | '0' => some '\x00'
  | 'a' => some '\x07'
  | 'b' => some '\x08'
  | 't' => some '\t'
  | '\t' => some '\t'
  | 'n' => some '\n'
  | 'v' => some '\x0b'
  | 'f' => some '\x0c'
  | 'r' => some '\r'
  | 'e' => some '\x1b'
  | ' ' => some ' '
  | '"' => some '"'
  | '/' => some '/'
  | '\\' => some '\\'
  | 'N' => some '\u0085'
  | '_' => some '\u00a0'
  | 'L' => some '\u2028'
  | 'P' => some '\u2029'
  | _ => none

/-- How many hexadecimal digits follow the letter of an escape. -/
def escapeLength? : Char → Option Nat
  | 'x' => some 2
  | 'u' => some 4
  | 'U' => some 8
  | _ => none

/-- The character that hexadecimal digits write, if they write one. -/
def escapedCode? (ds : List Char) : Option Char :=
  (Text.natOfHex? ds).bind fun n => if n.isValidChar then some (Char.ofNat n) else none

/-- The character of an escape behind its backslash, and how many characters write it. -/
def escape? : List Char → Option (Char × Nat)
  | [] => none
  | e :: rest =>
    match escapeLength? e with
    | none => (escaped? e).map fun ch => (ch, 1)
    | some n =>
      let digits := rest.take n
      if digits.length < n then none else (escapedCode? digits).map fun ch => (ch, n + 1)

/-! ## Words and scalars -/

/-- The characters of a quoted scalar up to the next blank, line end or closing quote,
within a number of steps: what they stand for, whether an escaped line end follows, and
the cursor behind. -/
def quotedWord (q : Quote) : Nat → Cursor → Option (List Char × Bool × Cursor)
  | 0, _ => none
  | steps + 1, c =>
    match q, c.rest with
    | _, [] => some ([], false, c)
    | .single, '\'' :: '\'' :: rest =>
      (quotedWord q steps (c.advance 2 rest)).map fun r => ('\'' :: r.1, r.2)
    | .double, '\\' :: rest =>
      if !rest.isEmpty && lineEndNext rest then
        some ([], true, (c.advance 1 rest).newLine (rest.drop 1))
      else
        (escape? rest).bind fun (ch, length) =>
          (quotedWord q steps (c.drop (length + 1))).map fun r => (ch :: r.1, r.2)
    | _, ch :: rest =>
      if isSpace ch || ch = q.mark then some ([], false, c)
      else (quotedWord q steps (c.advance 1 rest)).map fun r => (ch :: r.1, r.2)

/-- A quoted scalar behind its first quote, within a number of steps: its text and the
cursor behind the last quote. -/
def quoted (q : Quote) : Nat → Cursor → Option (List Char × Cursor)
  | 0, _ => none
  | steps + 1, c =>
    if c.atMarker || c.rest.isEmpty then none
    else
      (quotedWord q (steps + 1) c).bind fun (word, joined, behind) =>
        if behind.rest.head? = some q.mark then some (word, behind.drop 1)
        else
          (if joined then Gap.readEscaped behind else Gap.read 0 behind).bind fun (gap, next) =>
            (quoted q steps next).map fun r => (word ++ gap.text ++ r.1, r.2)

end Yaml

end TabHost
