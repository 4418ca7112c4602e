import TabHost.Json.Reader

/-!
# Decoding

A `Decoder α` takes a fragment for a value of `α` or says what is wrong with it. Faults
count in the order of the text: the first wrong member of a record is reported before a
later member that cannot be read, and members that are missing are reported after all
that is there, in the order of the record.

Records are described by their fields (`Fields α`), once, and read from an object by name
or from an array by position. A record whose kind is told by a tag (`tagged`) is first
read to its end, since the tag may come last; what is inside it is then `held` and no
longer read off the text, which makes some faults be told apart differently.

`Fields.decodeObject` depends on the members only through the value of each name, as long
as all of them are of the right kind, and that is why members may come in any order.
-/

namespace TabHost

/-- What is wrong with a fragment. -/
inductive DecodeError where
  /-- The text is not JSON. -/
  | malformed
  | missingField (name : String)
  | duplicateField (name : String)
  | unknownVariant (name : String)
  /-- A value of another kind. -/
  | invalidType
  /-- A number out of range, or an object that does not name one variant. -/
  | invalidValue
  /-- An array of a wrong length. -/
  | invalidLength
  /-- A value of the right kind that its type refuses. -/
  | refused (reason : String)
  deriving DecidableEq

namespace DecodeError

/-- The wording of a fault in the data; a text that is not JSON has none. -/
def message? : DecodeError → Option String
  | .malformed => none
  | .missingField name => some ("missing field `" ++ name ++ "`")
  | .duplicateField name => some ("duplicate field `" ++ name ++ "`")
  | .unknownVariant name => some ("unknown variant `" ++ name ++ "`")
  | .invalidType => some "invalid type"
  | .invalidValue => some "invalid value"
  | .invalidLength => some "invalid length"
  | .refused reason => some reason

end DecodeError

/-- Where a fragment is decoded: straight from the text, inside so many arrays and
objects, or as a part of a value that was read as a whole before. -/
inductive Place where
  | text (depth : Nat)
  | held
  deriving DecidableEq

namespace Place

/-- The place of the parts of an array or object. -/
def inner : Place → Place
  | .text depth => .text (depth + 1)
  | .held => .held

/-- Arrays and objects may be at most so deep inside each other in a value that is read
as a whole. -/
def maxDepth : Nat := 127

/-- Whether a fragment can be read as a whole at a place. -/
def holds (place : Place) (v : Fragment) : Bool :=
  match place with
  | .text depth => v.whole (maxDepth - depth)
  | .held => true

/-- The fault of an array or object that goes on where it had to end. -/
def excess : Place → DecodeError
  | .text _ => .malformed
  | .held => .invalidLength

end Place

/-- Takes fragments for values of a type. -/
abbrev Decoder (α : Type) := Place → Fragment → Except DecodeError α

/-- The fault of a fragment whose kind is not the expected one. -/
def Fragment.refuse : Fragment → DecodeError
  | .garbled => .malformed
  | .broken => .malformed
  | _ => .invalidType

namespace Decode

/-! ## Scalars -/

/-- A whole number below a limit. -/
def natBelow (limit : Nat) : Decoder Nat := fun _ v =>
  match v with
  | .int (.ofNat n) => if n < limit then .ok n else .error .invalidValue
  | .int (.negSucc _) => .error .invalidValue
  | v => .error v.refuse

def uint16 : Decoder UInt16 := fun p v => (natBelow UInt16.size p v).map UInt16.ofNat

def uint32 : Decoder UInt32 := fun p v => (natBelow UInt32.size p v).map UInt32.ofNat

def uint64 : Decoder UInt64 := fun p v => (natBelow UInt64.size p v).map UInt64.ofNat

/-- A double; whole numbers count as the nearest one. -/
def float : Decoder Float := fun _ v =>
  match v with
  | .int i => .ok (Float.ofInt i)
  | .float x => .ok x
  | v => .error v.refuse

def bool : Decoder Bool := fun _ v =>
  match v with
  | .bool b => .ok b
  | v => .error v.refuse

def string : Decoder String := fun _ v =>
  match v with
  | .string s => .ok s
  | v => .error v.refuse

end Decode

/-! ## Records -/

/-- How the fields of a record are decoded. -/
structure Fields (α : Type) where
  /-- The names of the fields in order, and what the value of each must decode as. -/
  checks : List (String × Decoder Unit)
  /-- The record from the value of each name. -/
  build : Place → (String → Option Fragment) → Except DecodeError α
  /-- The record from the first items of an array, and the items after it. -/
  sequence : Place → Bool → List Fragment → Except DecodeError (α × List Fragment)

namespace Fields

variable {α β : Type}

/-- A field by its name; with a value that stands for it where it is missing, if it may
be missing. -/
def one (name : String) (decode : Decoder α) (absent : Option α) : Fields α where
  checks := [(name, fun p v => (decode p v).map fun _ => ())]
  build p look :=
    match look name, absent with
    | some v, _ => decode p v
    | none, some a => .ok a
    | none, none => .error (.missingField name)
  sequence p closed items :=
    match items, absent with
    | v :: rest, _ => (decode p v).map fun a => (a, rest)
    | [], some a => if closed then .ok (a, []) else .error .malformed
    | [], none => .error (if closed then .invalidLength else .malformed)

/-- A field that must be present. -/
def required (name : String) (decode : Decoder α) : Fields α := one name decode none

/-- A field with a value that stands for it where it is missing. -/
def optional (name : String) (decode : Decoder α) (absent : α) : Fields α :=
  one name decode (some absent)

/-- A record made from another one. -/
def map (f : α → β) (fs : Fields α) : Fields β where
  checks := fs.checks
  build p look := (fs.build p look).map f
  sequence p closed items := (fs.sequence p closed items).map fun r => (f r.1, r.2)

/-- Further fields behind the fields of a record. -/
def ap (fs : Fields (α → β)) (gs : Fields α) : Fields β where
  checks := fs.checks ++ gs.checks
  build p look :=
    match fs.build p look with
    | .error e => .error e
    | .ok f => (gs.build p look).map f
  sequence p closed items :=
    match fs.sequence p closed items with
    | .error e => .error e
    | .ok (f, rest) => (gs.sequence p closed rest).map fun r => (f r.1, r.2)

instance : Functor Fields where
  map := map

instance : Seq Fields where
  seq f x := ap f (x ())

/-- The decoder that checks the value of a name, if a field has that name. -/
def check? (fs : Fields α) (name : String) : Option (Decoder Unit) :=
  (fs.checks.find? fun c => c.1 = name).map Prod.snd

/-- Goes through members in the order of the text: a field must come only once and its
value be of the right kind, and the value of any other name need only be grammatical. -/
def checkMembers (fs : Fields α) (place : Place) :
    List String → List (MemberKey × Fragment) → Except DecodeError Unit
  | _, [] => .ok ()
  | seen, (.name n, v) :: rest =>
    match fs.check? n with
    | none => if v.grammatical then checkMembers fs place seen rest else .error .malformed
    | some decode =>
      if n ∈ seen then .error (.duplicateField n)
      else
        match decode place v with
        | .error e => .error e
        | .ok () => checkMembers fs place (n :: seen) rest
  | _, _ :: _ => .error .malformed

/-- The value of a name among members. -/
def valueOf (members : List (MemberKey × Fragment)) (name : String) : Option Fragment :=
  (members.find? fun m => m.1 = .name name).map Prod.snd

/-- A record from the members of an object. -/
def decodeObject (fs : Fields α) (place : Place) (members : List (MemberKey × Fragment))
    (closed : Bool) : Except DecodeError α :=
  match fs.checkMembers place [] members with
  | .error e => .error e
  | .ok () => if closed then fs.build place (valueOf members) else .error .malformed

/-- A record from the items of an array. -/
def decodeArray (fs : Fields α) (place : Place) (items : List Fragment) (closed : Bool) :
    Except DecodeError α :=
  match fs.sequence place.inner closed items with
  | .error e => .error e
  | .ok (a, rest) => if rest.isEmpty && closed then .ok a else .error place.excess

/-- A record from an object or an array. -/
def record (fs : Fields α) : Decoder α := fun place v =>
  match v with
  | .object members closed => fs.decodeObject place.inner members closed
  | .array items closed => fs.decodeArray place items closed
  | v => .error v.refuse

end Fields

namespace Decode

variable {α : Type}

/-! ## Variants -/

/-- One of the names of an enumeration: it stands for a value by itself, or for one that
is made from a payload. -/
inductive Alternative (α : Type) where
  | plain (a : α)
  | holding (decode : Decoder α)

/-- The value of an alternative from the payload behind its name. -/
def Alternative.decode : Alternative α → Decoder α
  | .plain a => fun place v =>
    match place, v with
    | _, .null => .ok a
    | .held, .object [] _ => .ok a
    | _, v => .error v.refuse
  | .holding decode => decode

/-- A value given by the name of its alternative, or by an object with that name and the
payload as its only member. -/
def choice (find : String → Option (Alternative α)) : Decoder α := fun place v =>
  let named (n : String) (f : Alternative α → Except DecodeError α) : Except DecodeError α :=
    match find n with
    | none => .error (.unknownVariant n)
    | some a => f a
  match v, place with
  | .string s, _ => named s fun
    | .plain a => .ok a
    | .holding _ => .error .invalidType
  | .object ((.name n, payload) :: rest) closed, .text _ => named n fun alternative =>
    match alternative.decode place.inner payload with
    | .error e => .error e
    | .ok a => if rest.isEmpty && closed then .ok a else .error .malformed
  | .object [(.name n, payload)] _, .held => named n fun alternative =>
    alternative.decode .held payload
  | .object _ _, .held => .error .invalidValue
  | _, .text _ => .error .malformed
  | _, .held => .error .invalidType

/-- An enumeration of plain values by their names. -/
def enumeration (names : List (String × α)) : Decoder α :=
  choice fun s => (names.find? fun n => n.1 = s).map fun n => .plain n.2

/-! ## Records with a tag -/

/-- What stands beside the tag of a variant. -/
inductive Payload (α : Type) where
  | nothing (a : α)
  | fields (fs : Fields α)

/-- The value of a variant from the members or items beside its tag. -/
def Payload.decode : Payload α → Fragment → Except DecodeError α
  | .nothing _, .array (_ :: _) _ => .error .invalidLength
  | .nothing a, _ => .ok a
  | .fields fs, v => fs.record .held v

/-- The variants of a tagged record by their names, in order. -/
abbrev Variants (α : Type) := List (String × Payload α)

/-- The variant that a tag names. In a held value its position will do as well. -/
def Variants.select (vs : Variants α) (place : Place) (v : Fragment) :
    Except DecodeError (Payload α) :=
  match place, v with
  | _, .string s =>
    match vs.find? fun n => n.1 = s with
    | some n => .ok n.2
    | none => .error (.unknownVariant s)
  | .held, .int (.ofNat n) =>
    match vs[n]? with
    | some n => .ok n.2
    | none => .error .invalidValue
  | _, v => .error v.refuse

/-- Goes through the members of a tagged object in the order of the text, for its
variant; `found` is the one told by the members before. -/
def Variants.scan (vs : Variants α) (tag : String) (place : Place) :
    Option (Payload α) → List (MemberKey × Fragment) → Except DecodeError (Option (Payload α))
  | found, [] => .ok found
  | found, (.name n, v) :: rest =>
    if n = tag then
      if found.isSome then .error (.duplicateField tag)
      else
        match vs.select place v with
        | .error e => .error e
        | .ok payload => vs.scan tag place (some payload) rest
    else if place.holds v then vs.scan tag place found rest
    else .error .malformed
  | _, _ :: _ => .error .malformed

/-- A record whose variant is told by the member with the name `tag`, or by the first
item of an array. -/
def tagged (tag : String) (vs : Variants α) : Decoder α := fun place v =>
  match v with
  | .object members closed =>
    match vs.scan tag place.inner none members with
    | .error e => .error e
    | .ok found =>
      if closed then
        match found with
        | none => .error (.missingField tag)
        | some payload =>
          payload.decode (.object (members.filter fun m => m.1 ≠ .name tag) true)
      else .error .malformed
  | .array [] closed => .error (if closed then .missingField tag else .malformed)
  | .array (first :: rest) closed =>
    match vs.select place.inner first with
    | .error e => .error e
    | .ok payload =>
      if rest.all place.inner.holds && closed then payload.decode (.array rest true)
      else .error .malformed
  | v => .error v.refuse

/-! ## Texts -/

/-- A value from a text that holds nothing else. -/
def text (decode : Decoder α) (cs : List Char) : Except DecodeError α :=
  let (v, rest) := Fragment.read cs
  match decode (.text 0) v with
  | .error e => .error e
  | .ok a => if (Fragment.skipBlanks rest).isEmpty then .ok a else .error .malformed

end Decode

/-- A type whose values travel as JSON. -/
class Wire (α : Type) where
  decode : Decoder α
  encode : α → Json

end TabHost
