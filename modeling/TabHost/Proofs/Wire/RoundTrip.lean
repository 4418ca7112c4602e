import TabHost.Proofs.Wire.Events
import TabHost.Replay.Step

/-!
# Messages come back from the wire

Every message and every input event comes back from its text, and from every text that differs
from it in the order of members, in unknown members and in members left out that have their
default (`round_trips`); an envelope with a step beside its members is the step that sends it.
What is added to a record with a tag must be readable as a whole: a member that is nested too
deeply is refused there (`refused_of_deep`).
-/

namespace TabHost

open Decode Variation

variable {depth : Nat}

theorem TabId.carries (t : TabId) : Carries TabId.decode itself depth t.encode t :=
  (carries_uint64 t.value).map mk

theorem SurfaceId.carries (s : SurfaceId) : Carries SurfaceId.decode itself depth s.encode s :=
  (carries_uint64 s.value).map mk

theorem Epoch.carries (e : Epoch) : Carries Epoch.decode itself depth e.encode e :=
  (carries_uint64 e.value).map mk

theorem Channel.carries (c : Channel) : Carries Channel.decode itself depth c.encode c := by
  cases c <;> exact carries_enumeration rfl rfl

theorem Priority.carries (p : Priority) : Carries Priority.decode itself depth p.encode p := by
  cases p <;> exact carries_enumeration rfl rfl

/-! ## Requests -/

namespace Request

/-- The event of a request comes back. -/
def Survives : Request → Prop
  | .pointerMove e => e.Survives
  | .synthPointerMove e => e.Survives
  | .button e => e.Survives
  | .wheel e => e.Survives
  | .key e => e.Survives
  | _ => True

/-- The variants of a request, each with the fields beside its tag. -/
def varies : Variation :=
  tagged "type"
    [("destroy", []),
      ("set_render_state", [⟨"enabled", none, itself⟩,
        ⟨"force_repaint", some (.bool false), itself⟩, ⟨"epoch", none, itself⟩]),
      ("paint_while_interrupting", [⟨"epoch", none, itself⟩,
        ⟨"force_repaint", some (.bool false), itself⟩]),
      ("set_active", [⟨"is_active", none, itself⟩]),
      ("init_rendering", [⟨"surface", none, itself⟩]),
      ("pointer_move", PointerMove.varied), ("synth_pointer_move", PointerMove.varied),
      ("button", ButtonEvent.varied), ("wheel", WheelEvent.varied), ("key", KeyEvent.varied),
      ("channel_closed", [])]

theorem carries {r : Request} (h : r.Survives) :
    Carries Request.decode varies (depth + 2) r.encode r := by
  cases r with
  | destroy => exact carries_nothing rfl rfl (by decide)
  | setRenderState enabled force epoch =>
    have fields : Fields.Carries _ _ (depth + 1) _ (setRenderState enabled force epoch) :=
      (((Fields.Carries.required (carries_bool enabled) "enabled").map setRenderState).ap
        (.optional (carries_bool force) (carries_bool false) "force_repaint")).ap
        (.required (Epoch.carries epoch) "epoch")
    exact carries_fields fields rfl rfl (by decide) (by decide)
  | paintWhileInterrupting epoch force =>
    have fields : Fields.Carries _ _ (depth + 1) _ (paintWhileInterrupting epoch force) :=
      ((Fields.Carries.required (Epoch.carries epoch) "epoch").map paintWhileInterrupting).ap
        (.optional (carries_bool force) (carries_bool false) "force_repaint")
    exact carries_fields fields rfl rfl (by decide) (by decide)
  | setActive active =>
    exact carries_fields ((Fields.Carries.required (carries_bool active) "is_active").map setActive)
      rfl rfl (by decide) (by decide)
  | initRendering surface =>
    exact carries_fields ((Fields.Carries.required (SurfaceId.carries surface) "surface").map
      initRendering) rfl rfl (by decide) (by decide)
  | pointerMove e =>
    exact carries_fields ((PointerMove.carries h).map pointerMove) rfl rfl (by decide) (by decide)
  | synthPointerMove e =>
    exact carries_fields ((PointerMove.carries h).map synthPointerMove) rfl rfl (by decide)
      (by decide)
  | button e =>
    exact carries_fields ((ButtonEvent.carries h).map button) rfl rfl (by decide) (by decide)
  | wheel e =>
    exact carries_fields ((WheelEvent.carries h).map wheel) rfl rfl (by decide) (by decide)
  | key e => exact carries_fields ((KeyEvent.carries h).map key) rfl rfl (by decide) (by decide)
  | channelClosed => exact carries_nothing rfl rfl (by decide)

end Request

namespace Envelope

def Survives (e : Envelope) : Prop := e.request.Survives

def varied : List Member :=
  [⟨"tab", none, itself⟩, ⟨"channel", some (Channel.encode .content), itself⟩,
    ⟨"priority", some (Priority.encode .normal), itself⟩, ⟨"message", none, Request.varies⟩]

/-- The members of an envelope. -/
def members (e : Envelope) : List (String × Json) :=
  [("tab", e.tab.encode), ("channel", e.channel.encode), ("priority", e.priority.encode),
    ("message", e.request.encode)]

theorem carries {e : Envelope} (h : e.Survives) :
    fields.Carries varied (depth + 2) e.members e :=
  (((((Fields.Carries.required (TabId.carries e.tab) "tab").map mk).ap
    (.optional (Channel.carries e.channel) (Channel.carries .content) "channel")).ap
    (.optional (Priority.carries e.priority) (Priority.carries .normal) "priority"))).ap
    (.required (Request.carries h) "message")

end Envelope

/-! ## Replies -/

namespace Reply

/-- The key event of a reply comes back. -/
def Survives : Reply → Prop
  | .keyHandled e _ => e.Survives
  | _ => True

def varies : Variation :=
  tagged "type"
    [("acknowledge", [⟨"epoch", none, itself⟩]),
      ("reply_key_event", [⟨"event", none, record KeyEvent.varied⟩,
        ⟨"default_prevented", none, itself⟩]),
      ("channel_close", [])]

theorem carries {r : Reply} (h : r.Survives) :
    Carries Reply.decode varies (depth + 3) r.encode r := by
  cases r with
  | acknowledge epoch =>
    exact carries_fields ((Fields.Carries.required (Epoch.carries epoch) "epoch").map acknowledge)
      rfl rfl (by decide) (by decide)
  | keyHandled e prevented =>
    have event : Carries KeyEvent.decode (record KeyEvent.varied) (depth + 2) e.encode e :=
      (KeyEvent.carries h).record (by decide)
    have fields := ((Fields.Carries.required event "event").map keyHandled).ap
      (.required (carries_bool prevented) "default_prevented")
    exact carries_fields fields rfl rfl (by decide) (by decide)
  | channelClose => exact carries_nothing rfl rfl (by decide)

end Reply

namespace Outgoing

def Survives (o : Outgoing) : Prop := o.reply.Survives

def varied : List Member := [⟨"tab", none, itself⟩, ⟨"message", none, Reply.varies⟩]

theorem carries {o : Outgoing} (h : o.Survives) :
    Carries Outgoing.decode (record varied) (depth + 4) o.encode o :=
  have fields : fields.Carries varied (depth + 3) _ o :=
    ((Fields.Carries.required (TabId.carries o.tab) "tab").map mk).ap
      (.required (Reply.carries h) "message")
  fields.record (by decide)

end Outgoing

/-! ## Round trips -/

/-- Messages and input events come back from their texts and from every variation of them. An
envelope with a step beside its members, in every variation too, is the step that sends it. -/
theorem round_trips :
    (∀ e : Envelope, e.Survives →
      RoundTrips Envelope.decode (record Envelope.varied) e.encode e) ∧
    (∀ r : Request, r.Survives → RoundTrips Request.decode Request.varies r.encode r) ∧
    (∀ e : PointerEvent, e.Survives →
      RoundTrips PointerEvent.decode PointerEvent.varies e.encode e) ∧
    (∀ e : KeyEvent, e.Survives →
      RoundTrips KeyEvent.decode (record KeyEvent.varied) e.encode e) ∧
    (∀ e : WheelEvent, e.Survives →
      RoundTrips WheelEvent.decode (record WheelEvent.varied) e.encode e) ∧
    (∀ r : Reply, r.Survives → RoundTrips Reply.decode Reply.varies r.encode r) ∧
    (∀ o : Outgoing, o.Survives →
      RoundTrips Outgoing.decode (record Outgoing.varied) o.encode o) ∧
    ∀ (e : Envelope) (ms : List (String × Json)), e.Survives → e.encode = .object ms →
      RoundTrips Step.decode (tagged "step" [("send", Envelope.varied)])
        (.object (("step", .string "send") :: ms)) (.send e) := by
  refine ⟨fun e h => ?_, fun r h => ?_, fun e h => ?_, fun e h => ?_, fun e h => ?_, fun r h => ?_,
    fun o h => ?_, fun e ms h members => ?_⟩
  · exact Carries.roundTrips 3 ((Envelope.carries h).record (by decide)) (by decide)
  · exact Carries.roundTrips 2 (Request.carries h) (by decide)
  · exact Carries.roundTrips 2 (PointerEvent.carries h) (by decide)
  · exact Carries.roundTrips 2 ((KeyEvent.carries h).record (by decide)) (by decide)
  · exact Carries.roundTrips 2 ((WheelEvent.carries h).record (by decide)) (by decide)
  · exact Carries.roundTrips 3 (Reply.carries h) (by decide)
  · exact Carries.roundTrips 4 (Outgoing.carries h) (by decide)
  · cases members
    exact Carries.roundTrips 3 (carries_fields ((Envelope.carries h).map Step.send) rfl rfl
      (by decide) (by decide)) (by decide)

/-- A turn of the wheel by one and a half pixels with a flag that has no name. -/
def oneTurn : WheelEvent :=
  { deltaX := 1.5, modifiers := ⟨0x80000001⟩, timestamp := .ofNanos 2500000 }

/-- Its request with the members backwards, an unknown one in front, and those left out that have
their default. -/
def oneTurnVaried : Json :=
  .object
    [("x", .array [.null]), ("timestamp", oneTurn.timestamp.encode),
      ("modifiers", oneTurn.modifiers.encode), ("delta_x", .float 1.5), ("type", .string "wheel")]

theorem oneTurnVaried_varies :
    Request.varies (.text 0) (Request.wheel oneTurn).encode (.ofJson oneTurnVaried) := by
  have kept : Keeps .held WheelEvent.varied oneTurn.members
      [(.name "delta_x", .float 1.5), (.name "modifiers", .ofJson oneTurn.modifiers.encode),
        (.name "timestamp", .ofJson oneTurn.timestamp.encode)] :=
    .keep rfl <| .leave rfl <| .leave rfl <| .leave rfl <| .leave rfl <| .leave rfl <| .keep rfl <|
      .keep rfl <| .leave rfl <| .leave rfl .nil
  have unknown : Unknown WheelEvent.varied (.name "x", .array [.null] true) :=
    ⟨"x", rfl, by decide, rfl⟩
  have backwards : (Fragment.ofMembers
      [("x", .array [.null]), ("timestamp", oneTurn.timestamp.encode),
        ("modifiers", oneTurn.modifiers.encode), ("delta_x", .float 1.5),
        ("type", .string "wheel")]).Perm
      [(.name "type", .string "wheel"), (.name "delta_x", .float 1.5),
        (.name "modifiers", .ofJson oneTurn.modifiers.encode),
        (.name "timestamp", .ofJson oneTurn.timestamp.encode), (.name "x", .array [.null] true)] :=
    List.reverse_perm [_, _, _, _, _]
  refine ⟨"wheel", WheelEvent.varied, _, _, _, rfl, by simp, rfl, backwards, ?_, _, [_], kept,
    fun m hm => List.mem_singleton.mp hm ▸ unknown, .refl _⟩
  simp only [List.forall_mem_cons]
  exact ⟨⟨by simp, rfl⟩, ⟨by simp, rfl⟩, ⟨by simp, rfl⟩, ⟨by simp, rfl⟩, fun _ hm => by cases hm⟩

theorem round_trips_oneTurn : (Request.wheel oneTurn).Survives ∧
    Decode.text Request.decode (Request.wheel oneTurn).encode.render = .ok (.wheel oneTurn) ∧
    Decode.text Request.decode oneTurnVaried.render = .ok (.wheel oneTurn) := by
  have survives : oneTurn.Survives :=
    { deltaX := rfl, deltaY := printsBack_zero, deltaZ := printsBack_zero
      position := Point.survives_origin, timestamp := ⟨by decide +kernel, rfl⟩ }
  have trips := round_trips.2.1 (.wheel oneTurn) survives
  exact ⟨survives, trips.self, trips.written oneTurnVaried
    ⟨⟨trivial, trivial⟩, survives.timestamp.2, trivial, survives.deltaX, trivial, trivial⟩
    oneTurnVaried_varies⟩

/-- Arrays inside each other. -/
def nested : Nat → Json
  | 0 => .null
  | n + 1 => .array [nested n]

theorem legible_nested : ∀ n, (nested n).Legible
  | 0 => trivial
  | n + 1 => ⟨legible_nested n, trivial⟩

theorem whole_nested : ∀ {room n : Nat}, room < n →
    (Fragment.ofJson (nested n)).whole room = false
  | 0, n + 1, _ => rfl
  | room + 1, n + 1, h => by
    simp [nested, Fragment.ofJson, Fragment.ofItems, Fragment.whole, Fragment.wholeItems,
      whole_nested (Nat.lt_of_succ_lt_succ h)]

/-- A request with an unknown member that is nested too deeply is refused, although the text is
JSON. -/
theorem refused_of_deep {n : Nat} (h : Place.maxDepth ≤ n) :
    Decode.text Request.decode
      (Json.object [("type", .string "destroy"), ("x", nested n)]).render = .error .malformed := by
  have read := Fragment.read_render (v := .object [("type", .string "destroy"), ("x", nested n)])
    ⟨trivial, legible_nested n, trivial⟩
  have deep : (Place.text 1).holds (.ofJson (nested n)) = false := whole_nested h
  have scan : Request.variants.scan "type" (.text 1) none
      [(.name "type", .string "destroy"), (.name "x", .ofJson (nested n))] = .error .malformed := by
    rw [Variants.scan, if_pos rfl]
    show Request.variants.scan "type" (.text 1) (some (.nothing .destroy)) _ = _
    rw [Variants.scan, if_neg (by decide), deep]
    rfl
  have decode : Request.decode (.text 0)
      (.ofJson (.object [("type", .string "destroy"), ("x", nested n)])) = .error .malformed := by
    rw [Fragment.ofJson, Request.decode, Decode.tagged]
    simp only [Place.inner, Fragment.ofMembers, Fragment.ofJson, Nat.zero_add, scan]
  simp only [Decode.text, read, decode]

/-- A request comes back, but not with every member: neither with one that is nested too deeply,
nor with a number beyond all doubles, nor with half of a surrogate pair; and a step that is told
twice is none. -/
theorem round_trips_refused :
    Decode.text Request.decode (Json.object [("type", .string "destroy")]).render =
        .ok .destroy ∧
      Decode.text Request.decode
        (Json.object [("type", .string "destroy"), ("x", nested 200)]).render =
          .error .malformed ∧
      (Decode.text Request.decode
        "\x7b\"type\":\"destroy\",\"x\":1e400\x7d".toList).toOption.isNone = true ∧
      (Decode.text Request.decode
        "\x7b\"type\":\"destroy\",\"x\":\"\\ud800\"\x7d".toList).toOption.isNone = true ∧
      (Decode.text Step.decode
        (Json.object [("step", .string "send"), ("tab", .int 7),
          ("message", .object [("type", .string "destroy")]),
          ("step", .null)]).render).toOption.isNone = true :=
  ⟨rfl, refused_of_deep (by decide), by decide +kernel, by decide +kernel, by decide +kernel⟩

end TabHost
