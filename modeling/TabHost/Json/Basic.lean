import TabHost.Decimal.Shortest

/-!
# JSON values and their text

A `Json` value is a tree whose numbers are whole numbers or doubles and whose objects are
lists of members in the order of the text. `render` writes a value without blanks: the
members in their order, strings with the fewest escapes, and doubles by their shortest
decimal, always with a point or an exponent, so that a double never reads back as a whole
number.
-/

namespace TabHost

/-- A JSON value. -/
inductive Json where
  | null
  | bool (b : Bool)
  | int (i : Int)
  | float (x : Float)
  | string (s : String)
  | array (items : List Json)
  | object (members : List (String × Json))

namespace Json

/-! ## Numbers -/

/-- Doubles are positional from `0.00001` up to below `10^16`, with at least one digit
after the point, and have a signed exponent outside. -/
def floatLayout : Decimal.Layout :=
  { positionalBelow := 16, positionalFrom := -5, positiveMark := "e+", negativeMark := "e-" }

/-- A double that is not finite has no literal and is written as null. -/
def renderFloat (x : Float) : List Char :=
  (floatLayout.write? x).getD ['n', 'u', 'l', 'l']

/-- The literal of a whole number. -/
def renderInt : Int → List Char
  | .ofNat n => Nat.toDigits 10 n
  | .negSucc n => '-' :: Nat.toDigits 10 (n + 1)

/-! ## Strings -/

/-- A character of a string literal: the quote, the backslash and the control characters
below the blank are escaped, all others stand for themselves. -/
def escape (c : Char) : List Char :=
  if c = '"' then ['\\', '"']
  else if c = '\\' then ['\\', '\\']
  else if c.toNat < 0x20 then
    match c.toNat with
    | 0x08 => ['\\', 'b']
    | 0x09 => ['\\', 't']
    | 0x0A => ['\\', 'n']
    | 0x0C => ['\\', 'f']
    | 0x0D => ['\\', 'r']
    | n => ['\\', 'u', '0', '0', Nat.digitChar (n / 16), Nat.digitChar (n % 16)]
  else [c]

/-- The literal of a string. -/
def renderString (s : String) : List Char :=
  '"' :: s.toList.flatMap escape ++ ['"']

/-! ## Values -/

mutual

/-- The text of a value, without blanks. -/
def render : Json → List Char
  | .null => ['n', 'u', 'l', 'l']
  | .bool true => ['t', 'r', 'u', 'e']
  | .bool false => ['f', 'a', 'l', 's', 'e']
  | .int i => renderInt i
  | .float x => renderFloat x
  | .string s => renderString s
  | .array [] => ['[', ']']
  | .array (v :: vs) => '[' :: render v ++ renderItems vs
  | .object [] => ['{', '}']
  | .object ((k, v) :: ms) => '{' :: renderString k ++ ':' :: render v ++ renderMembers ms

/-- The items after the first one and the end of the array. -/
def renderItems : List Json → List Char
  | [] => [']']
  | v :: vs => ',' :: render v ++ renderItems vs

/-- The members after the first one and the end of the object. -/
def renderMembers : List (String × Json) → List Char
  | [] => ['}']
  | (k, v) :: ms => ',' :: renderString k ++ ':' :: render v ++ renderMembers ms

end

/-- The text of a value as a string. -/
def text (v : Json) : String := String.ofList v.render

end Json

end TabHost
