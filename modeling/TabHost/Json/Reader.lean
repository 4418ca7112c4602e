import TabHost.Json.Fragment
import TabHost.Text.Hex

/-!
# Reading JSON

`Fragment.read` reads the first value of a text, as far as it can be read, and gives back
the text behind it. Whole numbers between `-2^63` and `2^64 - 1` are read as such, except
that `-0` is the double with that sign; all other numbers are read as the nearest double.
-/

namespace TabHost

namespace Fragment

/-- A text without the blanks of JSON at its start. -/
def skipBlanks : List Char → List Char :=
  List.dropWhile fun c => c = ' ' || c = '\n' || c = '\t' || c = '\r'

/-! ## Numbers -/

/-- The number that decimal digits write. -/
def natOfDigits (ds : List Char) : Nat :=
  ds.foldl (fun n c => 10 * n + (c.toNat - '0'.toNat)) 0

/-- The value of a number literal by its sign, its digits before and after the point, and
its exponent. -/
def number (negative : Bool) (whole : List Char) (fraction : List Char) (exponent : Int)
    (isWhole : Bool) : Fragment :=
  let n := natOfDigits whole
  if isWhole && !negative && n < UInt64.size then .int n
  else if isWhole && negative && 0 < n && 2 * n ≤ UInt64.size then .int (-n)
  else
    match Binary64.ofDecimal? negative (natOfDigits (whole ++ fraction))
        (exponent - fraction.length) with
    | some x => .float x
    | none => .garbled

/-- The exponent of a number literal, where one stands: none if it lacks its digits. -/
def readExponent (cs : List Char) : Option (Option Int × List Char) :=
  match cs with
  | c :: rest =>
    if c = 'e' || c = 'E' then
      let (negative, rest) :=
        match rest with
        | '-' :: rest => (true, rest)
        | '+' :: rest => (false, rest)
        | rest => (false, rest)
      let (ds, rest) := rest.span Char.isDigit
      if ds.isEmpty then none
      else some (some (if negative then -(natOfDigits ds) else natOfDigits ds), rest)
    else some (none, cs)
  | [] => some (none, [])

/-- The digits after the point of a number literal: none if a point lacks its digits. -/
def readFraction (cs : List Char) : Option (Option (List Char) × List Char) :=
  match cs with
  | '.' :: rest =>
    let (ds, rest) := rest.span Char.isDigit
    if ds.isEmpty then none else some (some ds, rest)
  | _ => some (none, cs)

/-- A number literal behind its sign. A zero is followed by no further digit. -/
def readMagnitude (negative : Bool) (cs : List Char) : Fragment × List Char :=
  let (whole, rest) := cs.span Char.isDigit
  if whole.isEmpty || (whole.head? = some '0' && 1 < whole.length) then (.broken, rest)
  else
    match readFraction rest with
    | none => (.broken, rest)
    | some (fraction, rest) =>
      match readExponent rest with
      | none => (.broken, rest)
      | some (exponent, rest) =>
        (number negative whole (fraction.getD []) (exponent.getD 0)
          (fraction.isNone && exponent.isNone), rest)

/-! ## Strings -/

/-- A character of a string literal, or an escaped UTF-16 unit. -/
inductive Piece where
  | char (c : Char)
  | unit (n : Nat)

/-- The unit that four hexadecimal digits write. -/
def unit? (a b c d : Char) : Option Nat := Text.natOfHex? [a, b, c, d]

/-- The character of a one-letter escape. -/
def unescape? : Char → Option Char
  | '"' => some '"'
  | '\\' => some '\\'
  | '/' => some '/'
  | 'b' => some '\x08'
  | 'f' => some '\x0c'
  | 'n' => some '\n'
  | 'r' => some '\r'
  | 't' => some '\t'
  | _ => none

/-- The pieces of a string literal behind its opening quote: none if it is not closed,
holds a control character or has an escape that does not exist. -/
def readPieces : List Char → Option (List Piece × List Char)
  | [] => none
  | '"' :: rest => some ([], rest)
  | '\\' :: 'u' :: a :: b :: c :: d :: rest =>
    match unit? a b c d with
    | some n => (readPieces rest).map fun r => (.unit n :: r.1, r.2)
    | none => none
  | '\\' :: e :: rest =>
    match unescape? e with
    | some c => (readPieces rest).map fun r => (.char c :: r.1, r.2)
    | none => none
  | c :: rest =>
    if c.toNat < 0x20 || c = '\\' then none
    else (readPieces rest).map fun r => (.char c :: r.1, r.2)

/-- Whether a UTF-16 unit is the first half of a surrogate pair. -/
def isHighSurrogate (n : Nat) : Bool := 0xD800 ≤ n && n < 0xDC00

/-- Whether a UTF-16 unit is the second half of a surrogate pair. -/
def isLowSurrogate (n : Nat) : Bool := 0xDC00 ≤ n && n < 0xE000

/-- The text of the pieces: none if a half of a surrogate pair stands alone. -/
def joinPieces : List Piece → Option (List Char)
  | [] => some []
  | .char c :: rest => (joinPieces rest).map (c :: ·)
  | .unit n :: .unit m :: rest =>
    if isHighSurrogate n then
      if isLowSurrogate m then
        (joinPieces rest).map (Char.ofNat (0x10000 + (n - 0xD800) * 0x400 + (m - 0xDC00)) :: ·)
      else none
    else if isLowSurrogate n then none
    else (joinPieces (.unit m :: rest)).map (Char.ofNat n :: ·)
  | .unit n :: rest =>
    if isHighSurrogate n || isLowSurrogate n then none
    else (joinPieces rest).map (Char.ofNat n :: ·)

/-- A string literal behind its opening quote. -/
def readString (cs : List Char) : Fragment × List Char :=
  match readPieces cs with
  | none => (.broken, cs)
  | some (pieces, rest) =>
    match joinPieces pieces with
    | some s => (.string (String.ofList s), rest)
    | none => (.garbled, rest)

/-- What a fragment read at the place of a member's name is taken for. -/
def asKey : Fragment → Option MemberKey
  | .string s => some (.name s)
  | .garbled => some .garbled
  | _ => none

/-! ## Values -/

/-- Words that are values. -/
def readWord (cs : List Char) : Fragment × List Char :=
  match cs with
  | 'n' :: 'u' :: 'l' :: 'l' :: rest => (.null, rest)
  | 't' :: 'r' :: 'u' :: 'e' :: rest => (.bool true, rest)
  | 'f' :: 'a' :: 'l' :: 's' :: 'e' :: rest => (.bool false, rest)
  | cs => (.broken, cs)

mutual

/-- Reads a value within a number of steps. -/
def readValue : Nat → List Char → Fragment × List Char
  | 0, cs => (.broken, cs)
  | steps + 1, cs =>
    match skipBlanks cs with
    | [] => (.broken, [])
    | '"' :: rest => readString rest
    | '[' :: rest =>
      match skipBlanks rest with
      | ']' :: rest => (.array [] true, rest)
      | rest =>
        let (items, closed, rest) := readItems steps rest
        (.array items closed, rest)
    | '{' :: rest =>
      match skipBlanks rest with
      | '}' :: rest => (.object [] true, rest)
      | rest =>
        let (members, closed, rest) := readMembers steps rest
        (.object members closed, rest)
    | '-' :: rest => readMagnitude true rest
    | c :: rest => if c.isDigit then readMagnitude false (c :: rest) else readWord (c :: rest)

/-- Reads the items of an array up to its end: the items, whether the array is closed, and
the text behind it. -/
def readItems : Nat → List Char → List Fragment × Bool × List Char
  | 0, cs => ([.broken], false, cs)
  | steps + 1, cs =>
    let (v, rest) := readValue steps cs
    if v.ended then
      match skipBlanks rest with
      | ',' :: rest =>
        let (vs, closed, rest) := readItems steps rest
        (v :: vs, closed, rest)
      | ']' :: rest => ([v], true, rest)
      | rest => ([v], false, rest)
    else ([v], false, rest)

/-- Reads the members of an object up to its end, in the same way. -/
def readMembers : Nat → List Char → List (MemberKey × Fragment) × Bool × List Char
  | 0, cs => ([(.stray, .broken)], false, cs)
  | steps + 1, cs =>
    match skipBlanks cs with
    | '"' :: rest =>
      let (literal, rest) := readString rest
      match asKey literal with
      | none => ([(.stray, .broken)], false, rest)
      | some k =>
        match skipBlanks rest with
        | ':' :: rest =>
          let (v, rest) := readValue steps rest
          if v.ended then
            match skipBlanks rest with
            | ',' :: rest =>
              let (ms, closed, rest) := readMembers steps rest
              ((k, v) :: ms, closed, rest)
            | '}' :: rest => ([(k, v)], true, rest)
            | rest => ([(k, v)], false, rest)
          else ([(k, v)], false, rest)
        | rest => ([(k, .broken)], false, rest)
    | cs => ([(.stray, .broken)], false, cs)

end

/-- Reads the first value of a text; with the text behind it. Two steps per character are
always enough. -/
def read (cs : List Char) : Fragment × List Char :=
  readValue (2 * cs.length + 2) cs

end Fragment

end TabHost
