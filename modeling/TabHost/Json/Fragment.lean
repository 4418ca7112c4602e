import TabHost.Json.Basic

/-!
# What can be read of a text

A text need not be JSON, and even then a reader gets to see the part before the first
fault: a record whose third member is cut off is refused for its second member, if that
one is of the wrong kind. `Fragment` is the tree of what a text holds up to its first
fault. Besides the values of JSON it has scalars that follow the grammar and have no
value (`garbled`), the place where no value can be read (`broken`), and arrays and
objects that are not closed. `Fragment.ofJson` is the fragment of a whole value.
-/

namespace TabHost

/-- What stands where an object has a member's name. -/
inductive MemberKey where
  | name (s : String)
  /-- A string literal without a value. -/
  | garbled
  /-- No string that can be read. -/
  | stray
  deriving DecidableEq

/-- The part of a JSON text that can be read. -/
inductive Fragment where
  | null
  | bool (b : Bool)
  | int (i : Int)
  | float (x : Float)
  | string (s : String)
  /-- A number beyond all doubles, or a string with half of a surrogate pair. -/
  | garbled
  /-- No value at all. -/
  | broken
  | array (items : List Fragment) (closed : Bool)
  | object (members : List (MemberKey × Fragment)) (closed : Bool)

namespace Fragment

/-! ## Fragments of values -/

mutual

/-- The fragment of a value. -/
def ofJson : Json → Fragment
  | .null => .null
  | .bool b => .bool b
  | .int i => .int i
  | .float x => .float x
  | .string s => .string s
  | .array items => .array (ofItems items) true
  | .object members => .object (ofMembers members) true

/-- The fragments of the items of an array. -/
def ofItems : List Json → List Fragment
  | [] => []
  | v :: vs => ofJson v :: ofItems vs

/-- The fragments of the members of an object. -/
def ofMembers : List (String × Json) → List (MemberKey × Fragment)
  | [] => []
  | (k, v) :: ms => (.name k, ofJson v) :: ofMembers ms

end

/-! ## How far a fragment was read -/

/-- Whether reading can go on behind a fragment. -/
def ended : Fragment → Bool
  | .broken => false
  | .array _ closed => closed
  | .object _ closed => closed
  | _ => true

mutual

/-- Whether a fragment follows the grammar to its end, so that it can be passed over. -/
def grammatical : Fragment → Bool
  | .broken => false
  | .array items closed => closed && grammaticalItems items
  | .object members closed => closed && grammaticalMembers members
  | _ => true

def grammaticalItems : List Fragment → Bool
  | [] => true
  | v :: vs => grammatical v && grammaticalItems vs

def grammaticalMembers : List (MemberKey × Fragment) → Bool
  | [] => true
  | (k, v) :: ms => k != .stray && grammatical v && grammaticalMembers ms

end

mutual

/-- Whether a fragment is a value to its last leaf, with at most so many arrays and
objects inside each other. -/
def whole (room : Nat) : Fragment → Bool
  | .garbled => false
  | .broken => false
  | .array items closed =>
    match room with
    | 0 => false
    | room + 1 => closed && wholeItems room items
  | .object members closed =>
    match room with
    | 0 => false
    | room + 1 => closed && wholeMembers room members
  | _ => true

def wholeItems (room : Nat) : List Fragment → Bool
  | [] => true
  | v :: vs => whole room v && wholeItems room vs

def wholeMembers (room : Nat) : List (MemberKey × Fragment) → Bool
  | [] => true
  | (.name _, v) :: ms => whole room v && wholeMembers room ms
  | _ :: _ => false

end

end Fragment

end TabHost
