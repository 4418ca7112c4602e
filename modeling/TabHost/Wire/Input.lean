import TabHost.Input.Event
import TabHost.Wire.Time

/-!
# Input events on the wire

For every type of `Input/Event` its decoder and its JSON value. Records are written with
all their fields, in the order in which they are read from an array.
-/

namespace TabHost

open Fields (required optional)

/-! ## Enumerations -/

/-- The JSON value of a member of an enumeration. -/
def nameOf [DecidableEq α] (names : List (String × α)) (a : α) : Json :=
  match names.find? fun n => n.2 = a with
  | some n => .string n.1
  | none => .null

namespace MouseButton

def names : List (String × MouseButton) :=
  [("primary", .primary), ("secondary", .secondary), ("auxiliary", .auxiliary),
    ("back", .back), ("forward", .forward)]

def decode : Decoder MouseButton := Decode.enumeration names

def encode : MouseButton → Json := nameOf names

instance : Wire MouseButton := ⟨decode, encode⟩

end MouseButton

namespace ButtonAction

def names : List (String × ButtonAction) := [("down", .down), ("up", .up)]

def decode : Decoder ButtonAction := Decode.enumeration names

def encode : ButtonAction → Json := nameOf names

instance : Wire ButtonAction := ⟨decode, encode⟩

end ButtonAction

namespace DeltaMode

def names : List (String × DeltaMode) := [("pixel", .pixel), ("line", .line), ("page", .page)]

def decode : Decoder DeltaMode := Decode.enumeration names

def encode : DeltaMode → Json := nameOf names

instance : Wire DeltaMode := ⟨decode, encode⟩

end DeltaMode

namespace WheelPhase

def names : List (String × WheelPhase) := [("start", .start), ("delta", .delta), ("end", .stop)]

def decode : Decoder WheelPhase := Decode.enumeration names

def encode : WheelPhase → Json := nameOf names

instance : Wire WheelPhase := ⟨decode, encode⟩

end WheelPhase

namespace KeyAction

def names : List (String × KeyAction) := [("down", .down), ("press", .press), ("up", .up)]

def decode : Decoder KeyAction := Decode.enumeration names

def encode : KeyAction → Json := nameOf names

instance : Wire KeyAction := ⟨decode, encode⟩

end KeyAction

namespace EventStatus

def names : List (String × EventStatus) :=
  [("ignore", .ignore), ("consume_no_default", .consumeNoDefault),
    ("consume_do_default", .consumeDoDefault)]

def decode : Decoder EventStatus := Decode.enumeration names

def encode : EventStatus → Json := nameOf names

instance : Wire EventStatus := ⟨decode, encode⟩

end EventStatus

namespace CodeName

def decode : Decoder CodeName :=
  Decode.choice fun s => (ofName? s).map .plain

def encode (c : CodeName) : Json := .string c.name

instance : Wire CodeName := ⟨decode, encode⟩

end CodeName

namespace Key

/-- A key by its name, or the text it types as the payload of `Character`. -/
def decode : Decoder Key :=
  Decode.choice fun s =>
    if s = "Character" then some (.holding fun place v => (Decode.string place v).map .character)
    else (KeyName.ofName? s).map fun k => .plain (.named k)

def encode : Key → Json
  | .named k => .string k.name
  | .character s => .object [("Character", .string s)]

instance : Wire Key := ⟨decode, encode⟩

end Key

/-! ## Parts of events -/

namespace PointerId

def decode : Decoder PointerId := fun place v => (Decode.uint32 place v).map mk

def encode (i : PointerId) : Json := .int i.value.toNat

instance : Wire PointerId := ⟨decode, encode⟩

end PointerId

namespace InputBlock

def decode : Decoder InputBlock := fun place v => (Decode.uint64 place v).map mk

def encode (b : InputBlock) : Json := .int b.value.toNat

instance : Wire InputBlock := ⟨decode, encode⟩

end InputBlock

namespace ScrollTarget

def fields : Fields ScrollTarget :=
  mk <$> required "layers_id" Decode.uint64 <*> required "pres_shell_id" Decode.uint32
    <*> required "scroll_id" Decode.uint64

def decode : Decoder ScrollTarget := fields.record

def encode (t : ScrollTarget) : Json :=
  .object
    [("layers_id", .int t.layers.toNat), ("pres_shell_id", .int t.shell.toNat),
      ("scroll_id", .int t.scroll.toNat)]

instance : Wire ScrollTarget := ⟨decode, encode⟩

end ScrollTarget

namespace Point

def fields : Fields Point := mk <$> required "x" Decode.float <*> required "y" Decode.float

def decode : Decoder Point := fields.record

def encode (p : Point) : Json := .object [("x", .float p.x), ("y", .float p.y)]

instance : Wire Point := ⟨decode, encode⟩

end Point

namespace Modifiers

def decode : Decoder Modifiers := fun place v =>
  match Decode.string place v with
  | .error e => .error e
  | .ok s => (ofText s).mapError fun e => .refused e.message

def encode (m : Modifiers) : Json := .string m.text

instance : Wire Modifiers := ⟨decode, encode⟩

end Modifiers

/-! ## Events -/

namespace PointerMove

def fields : Fields PointerMove :=
  mk <$> required "pointer_id" PointerId.decode <*> required "position" Point.decode
    <*> optional "modifiers" Modifiers.decode {} <*> optional "buttons" Decode.uint16 0
    <*> optional "timestamp" Duration.decode .zero
    <*> optional "input_block_id" InputBlock.decode {} <*> optional "guid" ScrollTarget.decode {}

def decode : Decoder PointerMove := fields.record

def members (e : PointerMove) : List (String × Json) :=
  [("pointer_id", e.pointer.encode), ("position", e.position.encode),
    ("modifiers", e.modifiers.encode), ("buttons", .int e.buttons.toNat),
    ("timestamp", e.timestamp.encode), ("input_block_id", e.block.encode),
    ("guid", e.target.encode)]

def encode (e : PointerMove) : Json := .object e.members

instance : Wire PointerMove := ⟨decode, encode⟩

end PointerMove

namespace ButtonEvent

def fields : Fields ButtonEvent :=
  mk <$> required "pointer_id" PointerId.decode <*> required "button" MouseButton.decode
    <*> required "action" ButtonAction.decode <*> required "position" Point.decode
    <*> optional "modifiers" Modifiers.decode {} <*> optional "timestamp" Duration.decode .zero
    <*> optional "input_block_id" InputBlock.decode {} <*> optional "guid" ScrollTarget.decode {}

def decode : Decoder ButtonEvent := fields.record

def members (e : ButtonEvent) : List (String × Json) :=
  [("pointer_id", e.pointer.encode), ("button", e.button.encode), ("action", e.action.encode),
    ("position", e.position.encode), ("modifiers", e.modifiers.encode),
    ("timestamp", e.timestamp.encode), ("input_block_id", e.block.encode),
    ("guid", e.target.encode)]

def encode (e : ButtonEvent) : Json := .object e.members

instance : Wire ButtonEvent := ⟨decode, encode⟩

end ButtonEvent

namespace PointerEvent

def variants : Decode.Variants PointerEvent :=
  [("move", .fields (move <$> PointerMove.fields)),
    ("button", .fields (button <$> ButtonEvent.fields))]

def decode : Decoder PointerEvent := Decode.tagged "kind" variants

def encode : PointerEvent → Json
  | .move e => .object (("kind", .string "move") :: e.members)
  | .button e => .object (("kind", .string "button") :: e.members)

instance : Wire PointerEvent := ⟨decode, encode⟩

end PointerEvent

namespace WheelEvent

def fields : Fields WheelEvent :=
  mk <$> optional "delta_x" Decode.float 0 <*> optional "delta_y" Decode.float 0
    <*> optional "delta_z" Decode.float 0 <*> optional "delta_mode" DeltaMode.decode .pixel
    <*> optional "phase" WheelPhase.decode .delta <*> optional "position" Point.decode {}
    <*> optional "modifiers" Modifiers.decode {} <*> optional "timestamp" Duration.decode .zero
    <*> optional "input_block_id" InputBlock.decode {} <*> optional "guid" ScrollTarget.decode {}

def decode : Decoder WheelEvent := fields.record

def members (e : WheelEvent) : List (String × Json) :=
  [("delta_x", .float e.deltaX), ("delta_y", .float e.deltaY), ("delta_z", .float e.deltaZ),
    ("delta_mode", e.mode.encode), ("phase", e.phase.encode), ("position", e.position.encode),
    ("modifiers", e.modifiers.encode), ("timestamp", e.timestamp.encode),
    ("input_block_id", e.block.encode), ("guid", e.target.encode)]

def encode (e : WheelEvent) : Json := .object e.members

instance : Wire WheelEvent := ⟨decode, encode⟩

end WheelEvent

namespace KeyEvent

def fields : Fields KeyEvent :=
  mk <$> required "kind" KeyAction.decode <*> required "key" Key.decode
    <*> optional "code" CodeName.decode .unidentified <*> optional "modifiers" Modifiers.decode {}
    <*> optional "is_repeat" Decode.bool false <*> optional "skippable" Decode.bool false
    <*> optional "wants_reply" Decode.bool false <*> optional "timestamp" Duration.decode .zero

def decode : Decoder KeyEvent := fields.record

def members (e : KeyEvent) : List (String × Json) :=
  [("kind", e.action.encode), ("key", e.key.encode), ("code", e.code.encode),
    ("modifiers", e.modifiers.encode), ("is_repeat", .bool e.isRepeat),
    ("skippable", .bool e.skippable), ("wants_reply", .bool e.wantsReply),
    ("timestamp", e.timestamp.encode)]

def encode (e : KeyEvent) : Json := .object e.members

instance : Wire KeyEvent := ⟨decode, encode⟩

end KeyEvent

end TabHost
