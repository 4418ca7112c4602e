import TabHost.Input.Event
import TabHost.Table

/-!
# Messages between a tab and its parent

The parent addresses a `Request` to one tab by putting it into an `Envelope`, on one of
two channels and at one of two priorities. A tab answers with a `Reply`. An `Epoch`
numbers the requests about rendering, which may arrive in any order.
-/

namespace TabHost

/-- The identity that the parent gives a tab. -/
structure TabId where
  value : UInt64
  deriving DecidableEq, Inhabited

instance : Ranked TabId where
  rank t := t.value.toNat
  rank_inj a b h := by
    cases a
    cases b
    exact congrArg _ (UInt64.toNat.inj h)

/-- A surface that a tab paints into. -/
structure SurfaceId where
  value : UInt64
  deriving DecidableEq, Inhabited

instance : Ranked SurfaceId where
  rank s := s.value.toNat
  rank_inj a b h := by
    cases a
    cases b
    exact congrArg _ (UInt64.toNat.inj h)

/-- The number of a request about rendering; zero comes before all of them. -/
structure Epoch where
  value : UInt64 := 0
  deriving DecidableEq, Inhabited

namespace Epoch

instance : LT Epoch := ⟨fun a b => a.value < b.value⟩

instance (a b : Epoch) : Decidable (a < b) := inferInstanceAs (Decidable (a.value < b.value))

theorem lt_trans {a b c : Epoch} (h : a < b) (h' : b < c) : a < c := UInt64.lt_trans h h'

theorem lt_of_not_lt_of_lt {a b c : Epoch} (h : ¬b < a) (h' : b < c) : a < c :=
  UInt64.lt_of_le_of_lt (UInt64.not_lt.mp h) h'

theorem not_lt_self (a : Epoch) : ¬a < a := UInt64.lt_irrefl a.value

theorem eq_of_not_lt {a b : Epoch} (h : ¬a < b) (h' : ¬b < a) : a = b := by
  cases a
  cases b
  exact congrArg _ (UInt64.le_antisymm (UInt64.not_lt.mp h') (UInt64.not_lt.mp h))

/-- The epoch after accepting a request of another epoch, if that one is newer. The epoch
alone decides, since requests arrive on two channels and in any order. -/
def accept? (current requested : Epoch) : Option Epoch :=
  if current < requested then some requested else none

theorem accept?_eq_some_iff {a b c : Epoch} : a.accept? b = some c ↔ a < b ∧ b = c := by
  unfold accept?
  split <;> simp_all

end Epoch

/-- The way that a request came. -/
inductive Channel where
  /-- The ordered channel to the parent. -/
  | content
  /-- The short way by which paints are forced while scripts keep content busy. -/
  | hangMonitor
  deriving DecidableEq, Inhabited

/-- How urgent a request is. -/
inductive Priority where
  | input
  | normal
  deriving DecidableEq

instance : Inhabited Priority := ⟨.normal⟩

/-- What the parent asks of a tab. -/
inductive Request where
  | destroy
  | setRenderState (enabled forceRepaint : Bool) (epoch : Epoch)
  | paintWhileInterrupting (epoch : Epoch) (forceRepaint : Bool)
  | setActive (active : Bool)
  | initRendering (surface : SurfaceId)
  | pointerMove (e : PointerMove)
  /-- A move that stands for no motion of the device and is dispatched like a button. -/
  | synthPointerMove (e : PointerMove)
  | button (e : ButtonEvent)
  | wheel (e : WheelEvent)
  | key (e : KeyEvent)
  /-- The transport found the channel gone without a farewell. -/
  | channelClosed

namespace Request

/-- The name of the kind of a request. -/
def name : Request → String
  | .destroy => "destroy"
  | .setRenderState .. => "set_render_state"
  | .paintWhileInterrupting .. => "paint_while_interrupting"
  | .setActive _ => "set_active"
  | .initRendering _ => "init_rendering"
  | .pointerMove _ => "pointer_move"
  | .synthPointerMove _ => "synth_pointer_move"
  | .button _ => "button"
  | .wheel _ => "wheel"
  | .key _ => "key"
  | .channelClosed => "channel_closed"

def isWheel : Request → Bool
  | .wheel _ => true
  | _ => false

end Request

/-- A request addressed to one tab. -/
structure Envelope where
  tab : TabId
  channel : Channel := .content
  priority : Priority := .normal
  request : Request

/-- What a tab tells its parent. -/
inductive Reply where
  /-- A render request had nothing to change; the tab has reached its epoch. -/
  | acknowledge (epoch : Epoch)
  | keyHandled (e : KeyEvent) (defaultPrevented : Bool)
  /-- The last message of a tab. -/
  | channelClose

/-- A reply with the tab that it comes from. -/
structure Outgoing where
  tab : TabId
  reply : Reply

end TabHost
