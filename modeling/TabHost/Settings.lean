import TabHost.Text.Lines
import TabHost.Yaml.Document

/-!
# Settings

How the tabs of a host treat their input. Settings are read from a YAML file that maps
the names of switches to booleans; a switch that is not there is on, and what has another
name is passed over. A file that does not exist, or has no content, stands for the
default.
-/

namespace TabHost

/-- How the tabs of a host treat their input. -/
structure Settings where
  /-- Whether pointer moves are batched; if not, they are dispatched like buttons. -/
  batchMoves : Bool := true
  /-- Whether wheel events are batched. -/
  batchWheel : Bool := true
  /-- Whether repeated keys may be dropped. -/
  skipRepeats : Bool := true
  deriving DecidableEq, Inhabited

/-- Why there are no settings. -/
inductive SettingsError where
  /-- The file cannot be read as a text. -/
  | unreadable
  /-- The text does not hold settings. -/
  | invalid
  deriving DecidableEq

/-- The state of the file that settings are read from. -/
inductive SettingsFile where
  | missing
  | unreadable
  | content (bytes : List UInt8)

namespace Settings

/-- A switch of the settings. -/
inductive Switch where
  | moves
  | wheel
  | repeats
  deriving DecidableEq

/-- The switch of a name. -/
def Switch.ofName? (name : List Char) : Option Switch :=
  if name = "coalesce_pointer_moves".toList then some .moves
  else if name = "coalesce_wheel".toList then some .wheel
  else if name = "skip_repeated_keys".toList then some .repeats
  else none

/-- The settings with a switch set. -/
def set (s : Settings) : Switch → Bool → Settings
  | .moves, b => { s with batchMoves := b }
  | .wheel, b => { s with batchWheel := b }
  | .repeats, b => { s with skipRepeats := b }

/-- The tag of booleans. -/
def booleanTag : List Char := "tag:yaml.org,2002:bool".toList

/-- The boolean that a scalar stands for. It is written without quotes, or as a literal
block with the tag of booleans. -/
def boolean? (v : Yaml.Scalar) : Option Bool :=
  if v.style = .plain || (v.style = .literal && v.tag = some booleanTag) then
    if ["true", "True", "TRUE"].contains (String.ofList v.text) then some true
    else if ["false", "False", "FALSE"].contains (String.ofList v.text) then some false
    else none
  else none

/-- The settings after the members of a mapping in a document, given the switches that
were set before: none if a switch is set twice or to no boolean, or a name is no scalar. -/
def ofMembers (d : Yaml.Document) :
    List Switch → Settings → List (Yaml.Node Nat × Yaml.Node Nat) → Option Settings
  | _, s, [] => some s
  | seen, s, (k, v) :: rest =>
    (d.scalar? k).bind fun name =>
      match Switch.ofName? name.text with
      | none => ofMembers d seen s rest
      | some switch =>
        if switch ∈ seen then none
        else
          ((d.scalar? v).bind boolean?).bind fun b =>
            ofMembers d (switch :: seen) (s.set switch b) rest

/-- The settings that a document holds. -/
def ofDocument? (d : Yaml.Document) : Option Settings :=
  match d.root with
  | .scalar _ .plain [] => some {}
  | .mapping _ members => ofMembers d [] {} members
  | _ => none

/-- The settings that a text holds. -/
def parse? (cs : List Char) : Option Settings := (Yaml.read cs).bind ofDocument?

/-- The settings that a file holds. -/
def load : SettingsFile → Except SettingsError Settings
  | .missing => .ok {}
  | .unreadable => .error .unreadable
  | .content bytes =>
    match Text.decode? bytes with
    | none => .error .unreadable
    | some cs =>
      match parse? cs with
      | none => .error .invalid
      | some s => .ok s

end Settings

end TabHost
