import TabHost.Protocol.Message
import TabHost.Wire.Input

/-!
# Messages on the wire

For every type of `Protocol/Message` its decoder and its JSON value. The kind of a request
and of a reply is told by the tag `type`.
-/

namespace TabHost

open Fields (required optional)

namespace TabId

def decode : Decoder TabId := fun place v => (Decode.uint64 place v).map mk

def encode (t : TabId) : Json := .int t.value.toNat

instance : Wire TabId := ⟨decode, encode⟩

end TabId

namespace SurfaceId

def decode : Decoder SurfaceId := fun place v => (Decode.uint64 place v).map mk

def encode (s : SurfaceId) : Json := .int s.value.toNat

instance : Wire SurfaceId := ⟨decode, encode⟩

end SurfaceId

namespace Epoch

def decode : Decoder Epoch := fun place v => (Decode.uint64 place v).map mk

def encode (e : Epoch) : Json := .int e.value.toNat

instance : Wire Epoch := ⟨decode, encode⟩

end Epoch

namespace Channel

def names : List (String × Channel) := [("content", .content), ("hang_monitor", .hangMonitor)]

def decode : Decoder Channel := Decode.enumeration names

def encode : Channel → Json := nameOf names

instance : Wire Channel := ⟨decode, encode⟩

end Channel

namespace Priority

def names : List (String × Priority) := [("input", .input), ("normal", .normal)]

def decode : Decoder Priority := Decode.enumeration names

def encode : Priority → Json := nameOf names

instance : Wire Priority := ⟨decode, encode⟩

end Priority

/-! ## Requests -/

namespace Request

def variants : Decode.Variants Request :=
  [("destroy", .nothing .destroy),
    ("set_render_state", .fields (setRenderState <$> required "enabled" Decode.bool
      <*> optional "force_repaint" Decode.bool false <*> required "epoch" Epoch.decode)),
    ("paint_while_interrupting", .fields (paintWhileInterrupting <$> required "epoch" Epoch.decode
      <*> optional "force_repaint" Decode.bool false)),
    ("set_active", .fields (setActive <$> required "is_active" Decode.bool)),
    ("init_rendering", .fields (initRendering <$> required "surface" SurfaceId.decode)),
    ("pointer_move", .fields (pointerMove <$> PointerMove.fields)),
    ("synth_pointer_move", .fields (synthPointerMove <$> PointerMove.fields)),
    ("button", .fields (button <$> ButtonEvent.fields)),
    ("wheel", .fields (wheel <$> WheelEvent.fields)),
    ("key", .fields (key <$> KeyEvent.fields)),
    ("channel_closed", .nothing .channelClosed)]

def decode : Decoder Request := Decode.tagged "type" variants

/-- The members of a request beside its tag. -/
def members : Request → List (String × Json)
  | .destroy => []
  | .setRenderState enabled force epoch =>
    [("enabled", .bool enabled), ("force_repaint", .bool force), ("epoch", epoch.encode)]
  | .paintWhileInterrupting epoch force =>
    [("epoch", epoch.encode), ("force_repaint", .bool force)]
  | .setActive active => [("is_active", .bool active)]
  | .initRendering surface => [("surface", surface.encode)]
  | .pointerMove e => e.members
  | .synthPointerMove e => e.members
  | .button e => e.members
  | .wheel e => e.members
  | .key e => e.members
  | .channelClosed => []

def encode (r : Request) : Json := .object (("type", .string r.name) :: r.members)

instance : Wire Request := ⟨decode, encode⟩

end Request

namespace Envelope

def fields : Fields Envelope :=
  mk <$> required "tab" TabId.decode <*> optional "channel" Channel.decode .content
    <*> optional "priority" Priority.decode .normal <*> required "message" Request.decode

def decode : Decoder Envelope := fields.record

def encode (e : Envelope) : Json :=
  .object
    [("tab", e.tab.encode), ("channel", e.channel.encode), ("priority", e.priority.encode),
      ("message", e.request.encode)]

instance : Wire Envelope := ⟨decode, encode⟩

end Envelope

/-! ## Replies -/

namespace Reply

def variants : Decode.Variants Reply :=
  [("acknowledge", .fields (acknowledge <$> required "epoch" Epoch.decode)),
    ("reply_key_event", .fields (keyHandled <$> required "event" KeyEvent.decode
      <*> required "default_prevented" Decode.bool)),
    ("channel_close", .nothing .channelClose)]

def decode : Decoder Reply := Decode.tagged "type" variants

def encode : Reply → Json
  | .acknowledge epoch => .object [("type", .string "acknowledge"), ("epoch", epoch.encode)]
  | .keyHandled e prevented =>
    .object
      [("type", .string "reply_key_event"), ("event", e.encode),
        ("default_prevented", .bool prevented)]
  | .channelClose => .object [("type", .string "channel_close")]

instance : Wire Reply := ⟨decode, encode⟩

end Reply

namespace Outgoing

def fields : Fields Outgoing :=
  mk <$> required "tab" TabId.decode <*> required "message" Reply.decode

def decode : Decoder Outgoing := fields.record

def encode (o : Outgoing) : Json :=
  .object [("tab", o.tab.encode), ("message", o.reply.encode)]

instance : Wire Outgoing := ⟨decode, encode⟩

end Outgoing

end TabHost
