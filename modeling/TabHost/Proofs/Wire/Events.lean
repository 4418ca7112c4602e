import TabHost.Proofs.Input.ModifierText
import TabHost.Proofs.Wire.Carrying
import TabHost.Wire.Message

/-!
# Input events on the wire come back

The fields of every input event with what stands for those that may be left out, and that its
decoder carries it: whatever its bits, ids, keys and texts, as long as its doubles print and parse
back and its timestamp survives the way through milliseconds (`Survives`).
-/

namespace TabHost

open Decode Variation

variable {α : Type} {depth : Nat}

/-! ## Scalars -/

theorem carries_bool (b : Bool) : Carries Decode.bool itself depth (.bool b) b :=
  .scalar (fun _ => rfl) (fun _ _ => rfl) trivial

theorem carries_float {x : Float} (h : PrintsBack x) :
    Carries Decode.float itself depth (.float x) x :=
  .scalar (fun _ => rfl) (fun _ _ => rfl) h

/-- A whole number that fits a word. -/
theorem legible_nat {n : Nat} (h : n < UInt64.size) : (Json.int n).Legible :=
  ⟨by omega, Int.ofNat_lt.mpr h⟩

theorem natBelow_eq_ok {n limit : Nat} (h : n < limit) (place : Place) :
    natBelow limit place (.ofJson (.int n)) = .ok n :=
  if_pos h

theorem carries_uint16 (n : UInt16) : Carries Decode.uint16 itself depth (.int n.toNat) n :=
  .scalar (fun place => by
      rw [Decode.uint16, natBelow_eq_ok n.toNat_lt]
      exact congrArg _ UInt16.ofNat_toNat)
    (fun _ _ => rfl) (legible_nat (n.toNat_lt.trans (by decide)))

theorem carries_uint32 (n : UInt32) : Carries Decode.uint32 itself depth (.int n.toNat) n :=
  .scalar (fun place => by
      rw [Decode.uint32, natBelow_eq_ok n.toNat_lt]
      exact congrArg _ UInt32.ofNat_toNat)
    (fun _ _ => rfl) (legible_nat (n.toNat_lt.trans (by decide)))

theorem carries_uint64 (n : UInt64) : Carries Decode.uint64 itself depth (.int n.toNat) n :=
  .scalar (fun place => by
      rw [Decode.uint64, natBelow_eq_ok n.toNat_lt]
      exact congrArg _ UInt64.ofNat_toNat)
    (fun _ _ => rfl) (legible_nat n.toNat_lt)

/-- A member of an enumeration comes back by its name. -/
theorem carries_enumeration [DecidableEq α] {names : List (String × α)} {a : α} {s : String}
    (written : names.find? (fun n => n.2 = a) = some (s, a))
    (read : names.find? (fun n => n.1 = s) = some (s, a)) :
    Carries (enumeration names) itself depth (nameOf names a) a := by
  have value : nameOf names a = .string s := by
    rw [nameOf, written]
  rw [value]
  refine .scalar (fun place => ?_) (fun _ _ => rfl) trivial
  simp [enumeration, choice, Fragment.ofJson, read]

theorem MouseButton.carries (b : MouseButton) :
    Carries MouseButton.decode itself depth b.encode b := by
  cases b <;> exact carries_enumeration rfl rfl

theorem ButtonAction.carries (a : ButtonAction) :
    Carries ButtonAction.decode itself depth a.encode a := by
  cases a <;> exact carries_enumeration rfl rfl

theorem DeltaMode.carries (m : DeltaMode) : Carries DeltaMode.decode itself depth m.encode m := by
  cases m <;> exact carries_enumeration rfl rfl

theorem WheelPhase.carries (p : WheelPhase) :
    Carries WheelPhase.decode itself depth p.encode p := by
  cases p <;> exact carries_enumeration rfl rfl

theorem KeyAction.carries (a : KeyAction) : Carries KeyAction.decode itself depth a.encode a := by
  cases a <;> exact carries_enumeration rfl rfl

theorem CodeName.carries (c : CodeName) : Carries CodeName.decode itself depth c.encode c :=
  .scalar (fun place => by
      have named : ofName? c.name = some c := ofName?_eq_some_iff.mpr rfl
      simp [decode, encode, choice, Fragment.ofJson, named])
    (fun _ _ => rfl) trivial

theorem KeyName.name_ne_character (k : KeyName) : k.name ≠ "Character" := fun same => by
  have no : "Character" ∉ keyNames := by decide
  exact no (same ▸ k.known)

/-- A key with a name, and one that types any text. -/
theorem Key.carries (k : Key) : Carries Key.decode itself (depth + 1) k.encode k := by
  cases k with
  | named k =>
    refine .scalar (fun place => ?_) (fun _ _ => rfl) trivial
    have named : KeyName.ofName? k.name = some k := KeyName.ofName?_eq_some_iff.mpr rfl
    simp [decode, encode, choice, Fragment.ofJson, k.name_ne_character, named]
  | character s =>
    refine .scalar (fun place => by cases place <;> rfl) (fun room enough => ?_) ⟨trivial, trivial⟩
    obtain ⟨room, rfl⟩ : ∃ n, room = n + 1 := ⟨room - 1, by omega⟩
    rfl

theorem Modifiers.carries (m : Modifiers) : Carries Modifiers.decode itself depth m.encode m :=
  .scalar (fun place => by
      simp only [decode, encode, Fragment.ofJson, Decode.string, ofText_text]
      rfl)
    (fun _ _ => rfl) trivial

/-- A duration is the same after its way through milliseconds. -/
def Duration.Survives (d : Duration) : Prop :=
  ofMillis? d.toMillis = some d ∧ PrintsBack d.toMillis

theorem Duration.carries {d : Duration} (h : d.Survives) :
    Carries Duration.decode itself depth d.encode d :=
  .scalar (fun place => by simp [decode, encode, Fragment.ofJson, Decode.float, h.1])
    (fun _ _ => rfl) h.2

theorem printsBack_zero : PrintsBack 0 := rfl

theorem Duration.survives_zero : Duration.zero.Survives := ⟨by decide +kernel, rfl⟩

/-! ## Parts of events -/

theorem PointerId.carries (i : PointerId) : Carries PointerId.decode itself depth i.encode i :=
  (carries_uint32 i.value).map mk

theorem InputBlock.carries (b : InputBlock) : Carries InputBlock.decode itself depth b.encode b :=
  (carries_uint64 b.value).map mk

namespace ScrollTarget

/-- The fields of a scroll target, none of which may be left out. -/
def varied : List Member :=
  [⟨"layers_id", none, itself⟩, ⟨"pres_shell_id", none, itself⟩, ⟨"scroll_id", none, itself⟩]

theorem carries (t : ScrollTarget) :
    Carries ScrollTarget.decode (record varied) (depth + 1) t.encode t :=
  have fields : fields.Carries varied depth _ t :=
    (((Fields.Carries.required (carries_uint64 t.layers) "layers_id").map mk).ap
      (.required (carries_uint32 t.shell) "pres_shell_id")).ap
      (.required (carries_uint64 t.scroll) "scroll_id")
  fields.record (by decide)

end ScrollTarget

namespace Point

/-- The coordinates of a position print and parse back. -/
def Survives (p : Point) : Prop := PrintsBack p.x ∧ PrintsBack p.y

def varied : List Member := [⟨"x", none, itself⟩, ⟨"y", none, itself⟩]

theorem carries {p : Point} (h : p.Survives) :
    Carries Point.decode (record varied) (depth + 1) p.encode p :=
  have fields : fields.Carries varied depth _ p :=
    ((Fields.Carries.required (carries_float h.1) "x").map mk).ap
      (.required (carries_float h.2) "y")
  fields.record (by decide)

theorem survives_origin : ({} : Point).Survives := ⟨printsBack_zero, printsBack_zero⟩

end Point

/-! ## Pointer events -/

namespace PointerMove

/-- The position and the timestamp of a move come back. -/
def Survives (e : PointerMove) : Prop := e.position.Survives ∧ e.timestamp.Survives

def varied : List Member :=
  [⟨"pointer_id", none, itself⟩, ⟨"position", none, record Point.varied⟩,
    ⟨"modifiers", some (Modifiers.encode {}), itself⟩, ⟨"buttons", some (.int 0), itself⟩,
    ⟨"timestamp", some Duration.zero.encode, itself⟩,
    ⟨"input_block_id", some (InputBlock.encode {}), itself⟩,
    ⟨"guid", some (ScrollTarget.encode {}), record ScrollTarget.varied⟩]

theorem carries {e : PointerMove} (h : e.Survives) :
    fields.Carries varied (depth + 1) e.members e :=
  (((((((Fields.Carries.required (PointerId.carries e.pointer) "pointer_id").map mk).ap
    (.required (Point.carries h.1) "position")).ap
    (.optional (Modifiers.carries e.modifiers) (Modifiers.carries {}) "modifiers")).ap
    (.optional (carries_uint16 e.buttons) (carries_uint16 0) "buttons")).ap
    (.optional (Duration.carries h.2) (Duration.carries Duration.survives_zero) "timestamp")).ap
    (.optional (InputBlock.carries e.block) (InputBlock.carries {}) "input_block_id")).ap
    (.optional (ScrollTarget.carries e.target) (ScrollTarget.carries {}) "guid")

end PointerMove

namespace ButtonEvent

/-- The position and the timestamp of a button event come back. -/
def Survives (e : ButtonEvent) : Prop := e.position.Survives ∧ e.timestamp.Survives

def varied : List Member :=
  [⟨"pointer_id", none, itself⟩, ⟨"button", none, itself⟩, ⟨"action", none, itself⟩,
    ⟨"position", none, record Point.varied⟩, ⟨"modifiers", some (Modifiers.encode {}), itself⟩,
    ⟨"timestamp", some Duration.zero.encode, itself⟩,
    ⟨"input_block_id", some (InputBlock.encode {}), itself⟩,
    ⟨"guid", some (ScrollTarget.encode {}), record ScrollTarget.varied⟩]

theorem carries {e : ButtonEvent} (h : e.Survives) :
    fields.Carries varied (depth + 1) e.members e :=
  ((((((((Fields.Carries.required (PointerId.carries e.pointer) "pointer_id").map mk).ap
    (.required (MouseButton.carries e.button) "button")).ap
    (.required (ButtonAction.carries e.action) "action")).ap
    (.required (Point.carries h.1) "position")).ap
    (.optional (Modifiers.carries e.modifiers) (Modifiers.carries {}) "modifiers")).ap
    (.optional (Duration.carries h.2) (Duration.carries Duration.survives_zero) "timestamp")).ap
    (.optional (InputBlock.carries e.block) (InputBlock.carries {}) "input_block_id")).ap
    (.optional (ScrollTarget.carries e.target) (ScrollTarget.carries {}) "guid")

end ButtonEvent

namespace PointerEvent

/-- What the event holds comes back. -/
def Survives : PointerEvent → Prop
  | .move e => e.Survives
  | .button e => e.Survives

def varies : Variation :=
  tagged "kind" [("move", PointerMove.varied), ("button", ButtonEvent.varied)]

theorem carries {e : PointerEvent} (h : e.Survives) :
    Carries PointerEvent.decode varies (depth + 2) e.encode e := by
  cases e with
  | move e =>
    exact carries_fields ((PointerMove.carries h).map move) rfl rfl (by decide) (by decide)
  | button e =>
    exact carries_fields ((ButtonEvent.carries h).map button) rfl rfl (by decide) (by decide)

end PointerEvent

/-! ## Wheel events -/

namespace WheelEvent

/-- The deltas, the position and the timestamp of a wheel event come back. -/
structure Survives (e : WheelEvent) : Prop where
  deltaX : PrintsBack e.deltaX
  deltaY : PrintsBack e.deltaY
  deltaZ : PrintsBack e.deltaZ
  position : e.position.Survives
  timestamp : e.timestamp.Survives

def varied : List Member :=
  [⟨"delta_x", some (.float 0), itself⟩, ⟨"delta_y", some (.float 0), itself⟩,
    ⟨"delta_z", some (.float 0), itself⟩, ⟨"delta_mode", some (DeltaMode.encode .pixel), itself⟩,
    ⟨"phase", some (WheelPhase.encode .delta), itself⟩,
    ⟨"position", some (Point.encode {}), record Point.varied⟩,
    ⟨"modifiers", some (Modifiers.encode {}), itself⟩,
    ⟨"timestamp", some Duration.zero.encode, itself⟩,
    ⟨"input_block_id", some (InputBlock.encode {}), itself⟩,
    ⟨"guid", some (ScrollTarget.encode {}), record ScrollTarget.varied⟩]

theorem carries {e : WheelEvent} (h : e.Survives) :
    fields.Carries varied (depth + 1) e.members e :=
  ((((((((((Fields.Carries.optional (carries_float h.deltaX) (carries_float printsBack_zero)
    "delta_x").map mk).ap
    (.optional (carries_float h.deltaY) (carries_float printsBack_zero) "delta_y")).ap
    (.optional (carries_float h.deltaZ) (carries_float printsBack_zero) "delta_z")).ap
    (.optional (DeltaMode.carries e.mode) (DeltaMode.carries .pixel) "delta_mode")).ap
    (.optional (WheelPhase.carries e.phase) (WheelPhase.carries .delta) "phase")).ap
    (.optional (Point.carries h.position) (Point.carries Point.survives_origin) "position")).ap
    (.optional (Modifiers.carries e.modifiers) (Modifiers.carries {}) "modifiers")).ap
    (.optional (Duration.carries h.timestamp) (Duration.carries Duration.survives_zero)
      "timestamp")).ap
    (.optional (InputBlock.carries e.block) (InputBlock.carries {}) "input_block_id")).ap
    (.optional (ScrollTarget.carries e.target) (ScrollTarget.carries {}) "guid")

end WheelEvent

/-! ## Key events -/

namespace KeyEvent

/-- The timestamp of a key event comes back. -/
def Survives (e : KeyEvent) : Prop := e.timestamp.Survives

def varied : List Member :=
  [⟨"kind", none, itself⟩, ⟨"key", none, itself⟩,
    ⟨"code", some (CodeName.encode .unidentified), itself⟩,
    ⟨"modifiers", some (Modifiers.encode {}), itself⟩, ⟨"is_repeat", some (.bool false), itself⟩,
    ⟨"skippable", some (.bool false), itself⟩, ⟨"wants_reply", some (.bool false), itself⟩,
    ⟨"timestamp", some Duration.zero.encode, itself⟩]

theorem carries {e : KeyEvent} (h : e.Survives) :
    fields.Carries varied (depth + 1) e.members e :=
  ((((((((Fields.Carries.required (KeyAction.carries e.action) "kind").map mk).ap
    (.required (Key.carries e.key) "key")).ap
    (.optional (CodeName.carries e.code) (CodeName.carries .unidentified) "code")).ap
    (.optional (Modifiers.carries e.modifiers) (Modifiers.carries {}) "modifiers")).ap
    (.optional (carries_bool e.isRepeat) (carries_bool false) "is_repeat")).ap
    (.optional (carries_bool e.skippable) (carries_bool false) "skippable")).ap
    (.optional (carries_bool e.wantsReply) (carries_bool false) "wants_reply")).ap
    (.optional (Duration.carries h) (Duration.carries Duration.survives_zero) "timestamp")

end KeyEvent

end TabHost
