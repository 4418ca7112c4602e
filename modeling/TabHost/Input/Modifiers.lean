import TabHost.Text.Blank
import TabHost.Text.Hex

/-!
# Modifier keys

The modifier keys held during an event are 32 flags, of which fourteen have names. Their
text is a list of names and hexadecimal words between bars; it is written with the names
in the order of their flags and the flags without a name together in one word at the end.
-/

namespace TabHost

/-- The modifier keys held during an event. -/
structure Modifiers where
  bits : UInt32 := 0
  deriving DecidableEq, Inhabited

/-- What is wrong with the text of modifiers. -/
inductive FlagError where
  | empty
  | invalidHex
  | unrecognized
  deriving DecidableEq

namespace FlagError

def message : FlagError → String
  | .empty => "encountered empty flag"
  | .invalidHex => "invalid hex flag"
  | .unrecognized => "unrecognized named flag"

end FlagError

namespace Modifiers

/-- The flags that have names. -/
def names : List (String × UInt32) :=
  [("ALT", 0x1), ("ALT_GRAPH", 0x2), ("CAPS_LOCK", 0x4), ("CONTROL", 0x8), ("FN", 0x10),
    ("FN_LOCK", 0x20), ("META", 0x40), ("NUM_LOCK", 0x80), ("SCROLL_LOCK", 0x100),
    ("SHIFT", 0x200), ("SYMBOL", 0x400), ("SYMBOL_LOCK", 0x800), ("HYPER", 0x1000),
    ("SUPER", 0x2000)]

/-! ## Reading -/

/-- The parts of a text between bars; there is always at least one. -/
def splitBars (cs : List Char) : List (List Char) :=
  cs.foldr
    (fun c parts =>
      match c, parts with
      | '|', parts => [] :: parts
      | c, part :: parts => (c :: part) :: parts
      | c, [] => [[c]])
    [[]]

/-- The word that hexadecimal digits write, a plus sign allowed before them. -/
def hexWord? (cs : List Char) : Option UInt32 :=
  let ds :=
    match cs with
    | '+' :: rest => rest
    | cs => cs
  if ds.isEmpty then none
  else
    (Text.natOfHex? ds).bind fun n => if n < UInt32.size then some (UInt32.ofNat n) else none

/-- The flags that one part of the text stands for. -/
def readFlag (part : List Char) : Except FlagError UInt32 :=
  match Text.trim part with
  | [] => .error .empty
  | '0' :: 'x' :: ds =>
    match hexWord? ds with
    | some bits => .ok bits
    | none => .error .invalidHex
  | cs =>
    match names.find? fun n => n.1 = String.ofList cs with
    | some n => .ok n.2
    | none => .error .unrecognized

/-- The flags that the parts of a text stand for together. -/
def readFlags : List (List Char) → Except FlagError UInt32
  | [] => .ok 0
  | part :: rest =>
    match readFlag part with
    | .error e => .error e
    | .ok bits => (readFlags rest).map (bits ||| ·)

/-- The modifiers of a text; a blank text stands for none. -/
def ofText (s : String) : Except FlagError Modifiers :=
  if (Text.trim s.toList).isEmpty then .ok {}
  else (readFlags (splitBars s.toList)).map Modifiers.mk

/-! ## Writing -/

/-- The flags without a name. -/
def unnamed (bits : UInt32) : UInt32 := bits &&& ~~~(0x3FFF)

/-- The words of the text of modifiers. -/
def words (m : Modifiers) : List (List Char) :=
  (names.filter fun n => m.bits &&& n.2 ≠ 0).map (·.1.toList) ++
    if unnamed m.bits = 0 then []
    else ['0' :: 'x' :: Nat.toDigits 16 (unnamed m.bits).toNat]

/-- The text of modifiers. -/
def text (m : Modifiers) : String :=
  String.ofList ([' ', '|', ' '].intercalate m.words)

end Modifiers

end TabHost
