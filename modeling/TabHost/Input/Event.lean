import TabHost.Input.KeyNames
import TabHost.Input.Modifiers
import TabHost.Time

/-!
# Input events

The pointer, wheel and key events that the parent sends to a tab. Positions and deltas
are doubles and are compared as such; all else is compared exactly.

Wheel events may be added up only if they agree in all that `WheelEvent.compatibility`
collects, and a pending pointer move may be replaced by a newer one only under the
conditions of `PointerMove.sameButtons`.
-/

namespace TabHost

/-! ## Pointer events -/

/-- A pointing device. -/
structure PointerId where
  value : UInt32
  deriving DecidableEq, Inhabited

/-- The block of input that an event belongs to. -/
structure InputBlock where
  value : UInt64 := 0
  deriving DecidableEq, Inhabited

/-- The scrollable layer that the parent found under an event. -/
structure ScrollTarget where
  layers : UInt64 := 0
  shell : UInt32 := 0
  scroll : UInt64 := 0
  deriving DecidableEq, Inhabited

/-- A position. -/
structure Point where
  x : Float := 0
  y : Float := 0
  deriving BEq, Inhabited

/-- A pointer moved. -/
structure PointerMove where
  pointer : PointerId
  position : Point
  modifiers : Modifiers := {}
  /-- The buttons held during the move, one bit each. -/
  buttons : UInt16 := 0
  timestamp : Duration := .zero
  block : InputBlock := {}
  target : ScrollTarget := {}
  deriving BEq, Inhabited

/-- A button of a pointer. -/
inductive MouseButton where
  | primary
  | secondary
  | auxiliary
  | back
  | forward
  deriving DecidableEq, Inhabited

/-- What happened to a button. -/
inductive ButtonAction where
  | down
  | up
  deriving DecidableEq, Inhabited

/-- A button of a pointer went down or up. -/
structure ButtonEvent where
  pointer : PointerId
  button : MouseButton
  action : ButtonAction
  position : Point
  modifiers : Modifiers := {}
  timestamp : Duration := .zero
  block : InputBlock := {}
  target : ScrollTarget := {}
  deriving BEq, Inhabited

/-- A pointer event as handed to content. -/
inductive PointerEvent where
  | move (e : PointerMove)
  | button (e : ButtonEvent)
  deriving BEq, Inhabited

namespace PointerEvent

def pointer : PointerEvent → PointerId
  | .move e => e.pointer
  | .button e => e.pointer

def position : PointerEvent → Point
  | .move e => e.position
  | .button e => e.position

def block : PointerEvent → InputBlock
  | .move e => e.block
  | .button e => e.block

end PointerEvent

/-- Whether a move may take the place of a pending one: modifiers, held buttons and
target are the same. -/
def PointerMove.sameButtons (pending incoming : PointerMove) : Bool :=
  pending.modifiers = incoming.modifiers && pending.buttons = incoming.buttons &&
    pending.target = incoming.target

/-! ## Wheel events -/

/-- What the deltas of a wheel event count. -/
inductive DeltaMode where
  | pixel
  | line
  | page
  deriving DecidableEq, Inhabited

/-- Where a wheel event stands within a scroll operation. -/
inductive WheelPhase where
  | start
  | delta
  | stop
  deriving DecidableEq

instance : Inhabited WheelPhase := ⟨.delta⟩

/-- The wheel turned. -/
structure WheelEvent where
  deltaX : Float := 0
  deltaY : Float := 0
  deltaZ : Float := 0
  mode : DeltaMode := .pixel
  phase : WheelPhase := .delta
  position : Point := {}
  modifiers : Modifiers := {}
  timestamp : Duration := .zero
  block : InputBlock := {}
  target : ScrollTarget := {}
  deriving BEq, Inhabited

/-- What two wheel events must share before their deltas may be added up. -/
structure WheelCompatibility where
  mode : DeltaMode
  modifiers : Modifiers
  block : InputBlock
  target : ScrollTarget
  deriving DecidableEq

def WheelEvent.compatibility (e : WheelEvent) : WheelCompatibility :=
  { mode := e.mode, modifiers := e.modifiers, block := e.block, target := e.target }

/-- The newer of two wheel events with the deltas of both. -/
def WheelEvent.add (older newer : WheelEvent) : WheelEvent :=
  { newer with
    deltaX := older.deltaX + newer.deltaX
    deltaY := older.deltaY + newer.deltaY
    deltaZ := older.deltaZ + newer.deltaZ }

/-! ## Key events -/

/-- What happened to a key. -/
inductive KeyAction where
  | down
  | press
  | up
  deriving DecidableEq, Inhabited

/-- The meaning of a key: one with a name, or the text that it types. -/
inductive Key where
  | named (k : KeyName)
  | character (s : String)
  deriving DecidableEq

/-- A key went down, typed or went up. -/
structure KeyEvent where
  action : KeyAction
  key : Key
  code : CodeName := .unidentified
  modifiers : Modifiers := {}
  isRepeat : Bool := false
  /-- The parent allows the event to be dropped when content falls behind. -/
  skippable : Bool := false
  wantsReply : Bool := false
  timestamp : Duration := .zero
  deriving DecidableEq

/-- Whether a key event is one of the two that a held key repeats. -/
def KeyEvent.isDownOrPress (e : KeyEvent) : Bool :=
  match e.action with
  | .down => true
  | .press => true
  | .up => false

/-- What content made of a key event. -/
inductive EventStatus where
  | ignore
  | consumeNoDefault
  | consumeDoDefault
  deriving DecidableEq, Inhabited

end TabHost
