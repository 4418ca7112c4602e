import TabHost.Proofs.Batch.Keys
import TabHost.Proofs.Tab.Demand
import TabHost.Proofs.Tab.Overtaking

/-!
# Answers to key events

A key event is dropped if content is behind with the repeats of a held key, or if it is a
keypress of a keydown that content consumed (`Tab.drops`). Content is handed every other one,
and if it asks for an answer, the answer goes out over the open link in the same act, with what
content made of it (`Seat.heedsKeys_act`).

So a run of a live tab answers the key events that it hands to content and that ask for it, each
once and in their order, and no others (`Tab.keys_answered`).
-/

set_option linter.unusedSectionVars false

namespace TabHost

/-! ## Key events and answers in a trace -/

/-- The key event that an act delivers. -/
def Act.key? : Act → Option KeyEvent
  | .request { request := .key e, .. } => some e
  | _ => none

/-- The key event that content was called for, and what it made of it. -/
def Call.key? : Call → Option (KeyEvent × EventStatus)
  | .key e status => some (e, status)
  | _ => none

/-- The key event that a message answers, and whether its default was prevented. -/
def Effect.keyAnswer? : Effect → Option (KeyEvent × Bool)
  | .sent _ { reply := .keyHandled e prevented, .. } => some (e, prevented)
  | _ => none

/-- The key events that the content of a tab was handed, and what it made of them. -/
def keyed (tab : TabId) (trace : List Effect) : List (KeyEvent × EventStatus) :=
  (callsOf tab trace).filterMap Call.key?

/-- The answers to key events. -/
def keyAnswers (trace : List Effect) : List (KeyEvent × Bool) :=
  trace.filterMap Effect.keyAnswer?

/-- The answer that is due to a key event, by what content made of it. -/
def answerTo? (k : KeyEvent × EventStatus) : Option (KeyEvent × Bool) :=
  if k.1.wantsReply then some (k.1, decide (k.2 = .consumeNoDefault)) else none

/-- Whether content consumed the last keydown that it was handed, given whether it did so
before. -/
def consumed (before : Bool) (ks : List (KeyEvent × EventStatus)) : Bool :=
  ks.foldl (fun b k => if k.1.action = .down then decide (k.2 = .consumeNoDefault) else b) before

theorem keyed_append (tab : TabId) (a b : List Effect) :
    keyed tab (a ++ b) = keyed tab a ++ keyed tab b := by
  rw [keyed, callsOf_append, List.filterMap_append]
  rfl

theorem keyAnswers_append (a b : List Effect) :
    keyAnswers (a ++ b) = keyAnswers a ++ keyAnswers b :=
  List.filterMap_append

theorem consumed_append (before : Bool) (ks ks' : List (KeyEvent × EventStatus)) :
    consumed before (ks ++ ks') = consumed (consumed before ks) ks' :=
  List.foldl_append

/-! ## What is dropped -/

variable {σ : Type} [Content σ]

namespace Tab

/-- Whether a tab drops a key event. -/
def drops (t : Tab σ) (e : KeyEvent) : Bool :=
  (t.settings.skipRepeats && t.keys.skips e) || t.keys.suppresses e

/-- The key event that an act delivers, unless it is dropped. -/
def heededKey? (t : Tab σ) (a : Act) : Option KeyEvent := a.key?.filter fun e => !t.drops e

/-- The key events that are delivered in some turns and not dropped. -/
def heededKeys (build : Build) : List Turn → Tab σ → List KeyEvent
  | [], _ => []
  | x :: rest, t => (t.heededKey? x.act).toList ++ heededKeys build rest (t.turn build x).state

theorem drops_iff {t : Tab σ} {e : KeyEvent} : t.drops e = true ↔
    (t.settings.skipRepeats = true ∧ t.keys.skips e = true) ∨
      (e.action = .press ∧ t.keys.ignoresPress = true) := by
  simp [drops, KeyFilter.suppresses]

end Tab

namespace Seat

variable {s : Seat σ} {o : Outcome Effect (Seat σ)}

/-! ## What has nothing to do with keys -/

/-- An operation that has nothing to do with keys. -/
structure Keyless (s : Seat σ) (o : Outcome Effect (Seat σ)) : Prop where
  keys : o.state.tab.keys = s.tab.keys
  keyed : ∀ tab, keyed tab o.trace = []
  answers : keyAnswers o.trace = []

namespace Keyless

theorem of_silent (keys : o.state.tab.keys = s.tab.keys) (trace : o.trace = []) : Keyless s o :=
  ⟨keys, fun _ => by rw [trace]; rfl, by rw [trace]; rfl⟩

theorem andThen {f : Operation σ} (h : Keyless s o) (hf : Keyless o.state (f o.state)) :
    Keyless s (o.andThen f) := by
  cases ho : o.fault with
  | some e =>
    rw [Outcome.andThen_of_fault ho]
    exact h
  | none =>
    refine ⟨?_, fun tab => ?_, ?_⟩
    · rw [Outcome.state_andThen ho, hf.keys, h.keys]
    · rw [Outcome.trace_andThen ho, keyed_append, h.keyed, hf.keyed]
      rfl
    · rw [Outcome.trace_andThen ho, keyAnswers_append, h.answers, hf.answers]
      rfl

/-- Calls for anything but keys. -/
theorem of_calls (tab : TabId) {calls : List Call} (keys : o.state.tab.keys = s.tab.keys)
    (trace : o.trace = calls.map (.call tab)) (hc : ∀ c ∈ calls, c.key? = none) :
    Keyless s o := by
  refine ⟨keys, fun tab' => ?_, ?_⟩
  · rw [TabHost.keyed, List.filterMap_eq_nil_iff]
    intro c h
    rw [mem_callsOf, trace] at h
    obtain ⟨c', hc', heq⟩ := List.mem_map.mp h
    cases heq
    exact hc c hc'
  · rw [trace, keyAnswers, List.filterMap_eq_nil_iff]
    intro e he
    obtain ⟨c, -, rfl⟩ := List.mem_map.mp he
    rfl

/-- Notices and acknowledgements. -/
theorem of_notifies (h : Notifies s o) (keys : o.state.tab.keys = s.tab.keys) : Keyless s o := by
  refine ⟨keys, fun tab => ?_, ?_⟩
  · rw [TabHost.keyed, List.filterMap_eq_nil_iff]
    intro c hc
    obtain ⟨n, -, rfl⟩ := h.calls hc
    rfl
  · rw [keyAnswers, List.filterMap_eq_nil_iff]
    intro e he
    cases h.effects e he with
    | call => rfl
    | sent _ _ _ hr =>
      obtain ⟨epoch, rfl⟩ := hr
      rfl

end Keyless

theorem keyless_drain (s : Seat σ) : Keyless s (drain s) := by
  refine .of_calls s.tab.id rfl rfl fun c hc => ?_
  obtain ⟨e, -, rfl⟩ := List.mem_map.mp (s.stage.prefix_drain.subset hc)
  rfl

theorem keyless_pointerEvent (e : PointerEvent) (s : Seat σ) : Keyless s (pointerEvent e s) := by
  unfold pointerEvent
  split
  · exact .of_silent rfl rfl
  · have h := keyless_drain (s.onMoves fun b => b.flush.enqueue e)
    exact ⟨h.keys, h.keyed, h.answers⟩

theorem keyless_pointerMove (m : PointerMove) (s : Seat σ) : Keyless s (pointerMove m s) := by
  unfold pointerMove
  split
  · split
    · exact .of_silent rfl rfl
    · dsimp only
      split
      · have h := keyless_drain (s.onMoves (·.add PointerMove.sameButtons m))
        exact ⟨h.keys, h.keyed, h.answers⟩
      · exact .of_silent rfl rfl
  · exact keyless_pointerEvent _ s

theorem keyless_flushInput (s : Seat σ) : Keyless s (flushInput s) := by
  unfold flushInput
  split
  · split
    · exact .of_silent rfl rfl
    · split
      · exact .of_silent rfl rfl
      · have h := keyless_drain (s.onMoves MoveBatch.flush)
        exact ⟨h.keys, h.keyed, h.answers⟩
  · exact .of_silent rfl rfl

theorem keyless_wheelEvent (e : WheelEvent) (nextIsWheel : Bool) (s : Seat σ) :
    Keyless s (wheelEvent e nextIsWheel s) := by
  refine (keyless_flushInput s).andThen (.of_calls (flushInput s).state.tab.id rfl rfl ?_)
  intro c hc
  obtain ⟨w, rfl⟩ := (handles_wheelEvent _ e nextIsWheel _).wheel c hc
  rfl

theorem keys_applyRender (enabled force : Bool) (epoch : Epoch) (s : Seat σ) :
    (applyRender enabled force epoch s).state.tab.keys = s.tab.keys := by
  obtain ⟨-, content, htab⟩ := applyRender_spec enabled force epoch s
  rw [htab]

theorem keyless_requestRender (enabled force : Bool) (epoch : Epoch) (s : Seat σ) :
    Keyless s (requestRender enabled force epoch s) := by
  refine .of_notifies (notifies_requestRender enabled force epoch s) ?_
  rcases requestRender_cases enabled force epoch s with ⟨-, heq⟩ | ⟨-, -, heq⟩ | ⟨-, -, heq⟩ <;>
    rw [heq]
  · rfl
  · rfl
  · exact keys_applyRender _ _ _ _

theorem keyless_paintWhileInterrupting (epoch : Epoch) (force : Bool) (s : Seat σ) :
    Keyless s (paintWhileInterrupting epoch force s) := by
  unfold paintWhileInterrupting
  split
  · exact keyless_requestRender _ _ _ s
  · exact .of_silent rfl rfl

theorem keyless_initRendering (surface : SurfaceId) (s : Seat σ) :
    Keyless s (.ok (s.initRendering surface)) := by
  refine .of_silent ?_ rfl
  unfold initRendering
  split
  · rfl
  · dsimp only
    split <;> rfl

theorem keyless_operation (build : Build) (d : Demand) (hl : s.tab.state.isLive = true) :
    Keyless s (d.operation build s) := by
  cases d with
  | activate a =>
    refine .of_notifies (notifies_setActive a s) ?_
    rw [Demand.operation, setActive]
    split <;> rfl
  | render force r => exact keyless_requestRender _ _ _ s
  | block =>
    refine .of_notifies (notifies_addBlocker build s) ?_
    rw [Demand.operation, addBlocker, if_pos hl]
    rfl
  | release =>
    refine .of_notifies (notifies_removeBlocker build s) ?_
    rw [Demand.operation]
    rcases removeBlocker_cases build hl with ⟨-, heq, -⟩ | ⟨-, heq⟩ | ⟨-, heq⟩ <;> rw [heq]
    · rfl
    · obtain ⟨-, ⟨content, htab⟩, -⟩ :=
        replay_cases s.tab.gate.active s.tab.gate.render (s.setGate {})
      rw [htab]
      rfl

/-- Whatever is done to a live tab short of tearing it down has nothing to do with keys, unless
a key event is delivered. -/
theorem keyless_act (build : Build) {a : Act} (hl : s.tab.state.isLive = true)
    (ha : a.tearsDown = false) (hk : a.key? = none) : Keyless s (act build a s) := by
  cases hd : s.tab.demand? a with
  | some d =>
    rw [act_of_demand? build hl hd]
    exact keyless_operation build d hl
  | none =>
    cases a with
    | request e =>
      obtain ⟨tab, channel, priority, request⟩ := e
      simp only [act, handle, hl, if_true, handleLive]
      cases request with
      | destroy => cases ha
      | channelClosed => cases ha
      | setRenderState enabled force epoch => cases hd
      | setActive active => cases hd
      | paintWhileInterrupting epoch force => exact keyless_paintWhileInterrupting epoch force s
      | initRendering surface => exact keyless_initRendering surface s
      | pointerMove m => exact keyless_pointerMove m s
      | synthPointerMove m => exact keyless_pointerEvent _ s
      | button b => exact keyless_pointerEvent _ s
      | wheel w => exact keyless_wheelEvent w _ s
      | key k => cases hk
    | flush => exact keyless_flushInput s
    | addBlocker => cases hd
    | removeBlocker => cases hd
    | destroy => cases ha
    | pass d =>
      rw [act, runDelete_of_live d hl]
      exact .of_silent rfl rfl
    | push e => exact .of_silent rfl rfl
    | hangUp =>
      rw [act, hangUp]
      split <;> exact .of_silent rfl rfl
    | drop => cases ha

/-! ## Key events -/

/-- What a tab does with a key event once no pointer input waits. -/
def heedKey (e : KeyEvent) : Operation σ := fun s =>
  if s.tab.settings.skipRepeats then
    let skipped := s.tab.keys.skips e
    let s := s.setKeys (s.tab.keys.afterSkip e)
    if skipped then .ok s else unlessSuppressed e s
  else unlessSuppressed e s

theorem keyEvent_eq (e : KeyEvent) (s : Seat σ) :
    keyEvent e s = (flushInput s).andThen (heedKey e) := rfl

/-- A key event is dropped, or content is handed it, once it is decided about it. -/
theorem heedKey_cases (e : KeyEvent) (s : Seat σ) :
    let decided := s.setKeys (s.tab.keys.considered s.tab.settings.skipRepeats e)
    s.tab.drops e = true ∧ heedKey e s = .ok decided ∨
      s.tab.drops e = false ∧ heedKey e s = dispatchKey e decided := by
  have same : s.setKeys s.tab.keys = s := rfl
  cases hr : s.tab.settings.skipRepeats with
  | false =>
    simp only [heedKey, hr, Bool.false_eq_true, if_false, unlessSuppressed, Tab.drops,
      Bool.false_and, Bool.false_or, KeyFilter.considered, same]
    cases s.tab.keys.suppresses e with
    | true => exact Or.inl ⟨rfl, rfl⟩
    | false => exact Or.inr ⟨rfl, rfl⟩
  | true =>
    have suppresses : (s.setKeys (s.tab.keys.afterSkip e)).tab.keys.suppresses e =
        s.tab.keys.suppresses e := by
      show (s.tab.keys.afterSkip e).suppresses e = s.tab.keys.suppresses e
      rw [KeyFilter.suppresses, KeyFilter.suppresses, KeyFilter.ignoresPress_afterSkip]
    simp only [heedKey, hr, if_true, unlessSuppressed, suppresses, Tab.drops, Bool.true_and,
      KeyFilter.considered]
    cases s.tab.keys.skips e with
    | true => exact Or.inl ⟨rfl, rfl⟩
    | false =>
      cases s.tab.keys.suppresses e with
      | true => exact Or.inl ⟨rfl, rfl⟩
      | false => exact Or.inr ⟨rfl, rfl⟩

/-- An answer changes nothing of the tab. -/
theorem state_replyKey (e : KeyEvent) (status : EventStatus) (s : Seat σ) :
    (replyKey e status s).state = s ∧ keyed s.tab.id (replyKey e status s).trace = [] := by
  unfold replyKey
  split
  · rcases send_cases (r := .keyHandled e (status = .consumeNoDefault)) (by simp) s with
      h | ⟨l, -, -, -, h⟩
    · rw [h]
      exact ⟨rfl, rfl⟩
    · rw [h]
      exact ⟨rfl, rfl⟩
  · exact ⟨rfl, rfl⟩

/-- What comes of a key event that content is handed. -/
structure Dispatches (e : KeyEvent) (s : Seat σ) (status : EventStatus)
    (o : Outcome Effect (Seat σ)) : Prop where
  handed : keyed s.tab.id o.trace = [(e, status)]
  keys : o.state.tab.keys = s.tab.keys.record e status o.state.shared.clock
  /-- Nothing is answered but this event, behind it. -/
  answers : ∃ u : Seat σ, u.tab.standing = s.tab.standing ∧
    keyAnswers o.trace = keyAnswers (replyKey e status u).trace

theorem dispatches_dispatchKey (e : KeyEvent) (fault : (dispatchKey e s).fault = none) :
    Dispatches e s (s.stage.keyStatus e) (dispatchKey e s) := by
  obtain ⟨performed, -⟩ := Outcome.fault_andThen_eq_none_iff.mp fault
  -- the tab when content is done with the event
  obtain ⟨u, hu⟩ : ∃ u : Seat σ, u = (perform (Stage.key e) s).state.setKeys (s.tab.keys.record e
    (s.stage.keyStatus e) (perform (Stage.key e) s).state.shared.clock) := ⟨_, rfl⟩
  have standing : u.tab.standing = s.tab.standing := by rw [hu]; rfl
  have recorded : u.tab.keys =
      s.tab.keys.record e (s.stage.keyStatus e) u.shared.clock := by rw [hu]; rfl
  obtain ⟨same, silent⟩ := state_replyKey e (s.stage.keyStatus e) u
  have told : (perform (Stage.key e) s).trace =
      [.call s.tab.id (.key e (s.stage.keyStatus e))] := by
    rw [perform, Outcome.trace_lift, Outcome.trace_map, Stage.key, Stage.trace_perform]
    rfl
  have trace : (dispatchKey e s).trace = .call s.tab.id (.key e (s.stage.keyStatus e)) ::
      (replyKey e (s.stage.keyStatus e) u).trace := by
    rw [dispatchKey, Outcome.trace_andThen performed, told, hu]
    rfl
  have state : (dispatchKey e s).state = u := by
    rw [← same, hu, dispatchKey, Outcome.state_andThen performed]
    rfl
  refine ⟨?_, by rw [state]; exact recorded, u, standing, by rw [trace]; rfl⟩
  rw [show u.tab.id = s.tab.id from congrArg Standing.id standing] at silent
  rw [trace, ← List.singleton_append, keyed_append, silent]
  simp [keyed, callsOf, Effect.callOf?, Call.key?]

/-- The answer to a key event goes out over an open link. -/
theorem replyKey_of_open (e : KeyEvent) (status : EventStatus) {l : ParentLink}
    (ipcOpen : s.tab.ipcOpen = true) (link : s.tab.link = some l) (isOpen : l.isOpen = true) :
    keyAnswers (replyKey e status s).trace = (answerTo? (e, status)).toList := by
  unfold replyKey answerTo?
  split
  · rw [send_of_open (by simp) ipcOpen link isOpen]
    rfl
  · rfl

/-- What an operation comes to, as far as keys are concerned, if content is handed the key event
`k`, or none. -/
structure HeedsKeys (s : Seat σ) (k : Option KeyEvent) (o : Outcome Effect (Seat σ)) : Prop where
  handed : (keyed s.tab.id o.trace).map Prod.fst = k.toList
  answers : keyAnswers o.trace = (keyed s.tab.id o.trace).filterMap answerTo?
  ignoresPress : o.state.tab.keys.ignoresPress =
    consumed s.tab.keys.ignoresPress (keyed s.tab.id o.trace)

theorem Keyless.heedsKeys (h : Keyless s o) : HeedsKeys s none o := by
  refine ⟨?_, ?_, ?_⟩
  · rw [h.keyed]
    rfl
  · rw [h.answers, h.keyed]
    rfl
  · rw [h.keys, h.keyed]
    rfl

/-- What has nothing to do with keys may be done before. -/
theorem HeedsKeys.after {k : Option KeyEvent} {f : Operation σ} (h : Keyless s o)
    (fault : o.fault = none) (id : o.state.tab.id = s.tab.id)
    (hf : HeedsKeys o.state k (f o.state)) : HeedsKeys s k (o.andThen f) := by
  obtain ⟨handed, answers, ignoresPress⟩ := hf
  rw [id] at handed answers ignoresPress
  have trace : keyed s.tab.id (o.andThen f).trace = keyed s.tab.id (f o.state).trace := by
    rw [Outcome.trace_andThen fault, keyed_append, h.keyed, List.nil_append]
  refine ⟨trace ▸ handed, ?_, ?_⟩
  · rw [trace, ← answers, Outcome.trace_andThen fault, keyAnswers_append, h.answers,
      List.nil_append]
  · rw [trace, Outcome.state_andThen fault, ignoresPress, h.keys]

/-- What is skipped may be remembered before. -/
theorem HeedsKeys.of_setKeys {k : Option KeyEvent} {f : KeyFilter}
    (same : f.ignoresPress = s.tab.keys.ignoresPress) (h : HeedsKeys (s.setKeys f) k o) :
    HeedsKeys s k o :=
  ⟨h.handed, h.answers, same ▸ h.ignoresPress⟩

/-- Content is handed a key event that is not dropped, and it is answered. -/
theorem heedsKeys_dispatchKey (e : KeyEvent) {l : ParentLink} (ipcOpen : s.tab.ipcOpen = true)
    (link : s.tab.link = some l) (isOpen : l.isOpen = true)
    (fault : (dispatchKey e s).fault = none) : HeedsKeys s (some e) (dispatchKey e s) := by
  obtain ⟨handed, keys, u, standing, answers⟩ := dispatches_dispatchKey e fault
  have answered := replyKey_of_open e (s.stage.keyStatus e) (s := u)
    ((congrArg Standing.ipcOpen standing).trans ipcOpen)
    ((congrArg Standing.link standing).trans link) isOpen
  refine ⟨by rw [handed]; rfl, ?_, by rw [handed, keys]; rfl⟩
  rw [handed, answers, answered]
  cases due : answerTo? (e, s.stage.keyStatus e) <;> simp [due]

theorem heedsKeys_keyEvent (e : KeyEvent) {l : ParentLink} (ipcOpen : s.tab.ipcOpen = true)
    (link : s.tab.link = some l) (isOpen : l.isOpen = true)
    (fault : (keyEvent e s).fault = none) :
    HeedsKeys s (if s.tab.drops e then none else some e) (keyEvent e s) := by
  rw [keyEvent_eq] at fault ⊢
  obtain ⟨flushed, heeded⟩ := Outcome.fault_andThen_eq_none_iff.mp fault
  have keyless := keyless_flushInput s
  have standing := (feeds_flushInput s).standing
  generalize flushInput s = o at *
  have settings : o.state.tab.settings = s.tab.settings := congrArg Standing.settings standing
  have drops : o.state.tab.drops e = s.tab.drops e := by
    rw [Tab.drops, Tab.drops, settings, keyless.keys]
  refine .after keyless flushed (congrArg Standing.id standing) ?_
  rw [← drops]
  have same := KeyFilter.ignoresPress_considered o.state.tab.settings.skipRepeats o.state.tab.keys e
  rcases heedKey_cases e o.state with ⟨dropped, heq⟩ | ⟨kept, heq⟩
  · generalize o.state.tab.keys.considered _ e = f at same heq
    have silent : Keyless (o.state.setKeys f) (.ok (o.state.setKeys f)) := .of_silent rfl rfl
    rw [dropped, heq]
    exact .of_setKeys same silent.heedsKeys
  · rw [heq] at heeded
    rw [kept, heq]
    exact .of_setKeys same (heedsKeys_dispatchKey e
      ((congrArg Standing.ipcOpen standing).trans ipcOpen)
      ((congrArg Standing.link standing).trans link) isOpen heeded)

/-- Content is handed the key event that a live tab is delivered, unless the tab drops it, and
what content is handed is answered, if it asks for it, and nothing else. -/
theorem heedsKeys_act (build : Build) {a : Act} (hl : s.tab.state.isLive = true)
    (ha : a.tearsDown = false) {l : ParentLink} (ipcOpen : s.tab.ipcOpen = true)
    (link : s.tab.link = some l) (isOpen : l.isOpen = true)
    (fault : (act build a s).fault = none) :
    HeedsKeys s (s.tab.heededKey? a) (act build a s) := by
  cases hk : a.key? with
  | none =>
    rw [Tab.heededKey?, hk]
    exact (keyless_act build hl ha hk).heedsKeys
  | some e =>
    have delivers : act build a s = keyEvent e s := by
      cases a with
      | request envelope =>
        obtain ⟨tab, channel, priority, request⟩ := envelope
        cases request with
        | key k =>
          cases hk
          simp only [act, handle, hl, if_true, handleLive]
        | _ => cases hk
      | _ => cases hk
    have heeded : s.tab.heededKey? a = if s.tab.drops e then none else some e := by
      rw [Tab.heededKey?, hk, Option.filter]
      cases s.tab.drops e <;> rfl
    rw [delivers] at fault ⊢
    rw [heeded]
    exact heedsKeys_keyEvent e ipcOpen link isOpen fault

end Seat

/-! ## Runs -/

namespace Tab

/-- What a run of a tab comes to, as far as keys are concerned. -/
structure HeedsRun (build : Build) (t : Tab σ) (xs : List Turn) : Prop where
  /-- Content is handed the key events that are delivered and not dropped, in their order. -/
  handed : (keyed t.id (t.turns build xs).trace).map Prod.fst = t.heededKeys build xs
  /-- Those that ask for it are answered, each once and in their order, and no others. -/
  answers : keyAnswers (t.turns build xs).trace =
    (keyed t.id (t.turns build xs).trace).filterMap answerTo?
  ignoresPress : (t.turns build xs).state.keys.ignoresPress =
    consumed t.keys.ignoresPress (keyed t.id (t.turns build xs).trace)

/-- A tab keeps its standing in turns that neither tear it down nor concern the other end of its
link. -/
theorem standing_turn (build : Build) {x : Turn} {t : Tab σ} (hl : t.state.isLive = true)
    (spared : x.act.tearsDown = false) (there : x.act.isHangUp = false) :
    (t.turn build x).state.standing = t.standing :=
  (Seat.works_act build (s := t.seat x) hl spared there).standing

theorem heedsRun_turns (build : Build) {xs : List Turn} {t : Tab σ} {l : ParentLink}
    (live : t.state.isLive = true) (ipcOpen : t.ipcOpen = true) (link : t.link = some l)
    (isOpen : l.isOpen = true) (spared : ∀ x ∈ xs, x.act.tearsDown = false)
    (there : ∀ x ∈ xs, x.act.isHangUp = false) (fault : (t.turns build xs).fault = none) :
    (t.turns build xs).state.standing = t.standing ∧ t.HeedsRun build xs := by
  induction xs generalizing t with
  | nil => exact ⟨rfl, rfl, rfl, rfl⟩
  | cons x xs ih =>
    rw [turns] at fault
    obtain ⟨first, later⟩ := Outcome.fault_andThen_eq_none_iff.mp fault
    have heeds := Seat.heedsKeys_act build (s := t.seat x) live (spared x List.mem_cons_self)
      ipcOpen link isOpen first
    have standing := standing_turn build live (spared x List.mem_cons_self)
      (there x List.mem_cons_self)
    have id : (t.turn build x).state.id = t.id := congrArg Standing.id standing
    have live' : (t.turn build x).state.state = t.state := congrArg Standing.state standing
    obtain ⟨standing', handed, answers, ignoresPress⟩ := ih
      (by rw [live']; exact live) ((congrArg Standing.ipcOpen standing).trans ipcOpen)
      ((congrArg Standing.link standing).trans link)
      (fun y hy => spared y (List.mem_cons_of_mem _ hy))
      (fun y hy => there y (List.mem_cons_of_mem _ hy)) later
    rw [id] at handed answers ignoresPress
    have trace : (t.turns build (x :: xs)).trace =
        (t.turn build x).trace ++ ((t.turn build x).state.turns build xs).trace :=
      Outcome.trace_andThen first _
    have state : (t.turns build (x :: xs)).state =
        ((t.turn build x).state.turns build xs).state := Outcome.state_andThen first _
    refine ⟨by rw [state, standing', standing], ?_, ?_, ?_⟩
    · rw [trace, keyed_append, List.map_append, handed, heededKeys]
      exact congrArg (· ++ _) heeds.handed
    · rw [trace, keyed_append, keyAnswers_append, List.filterMap_append, answers]
      exact congrArg (· ++ _) heeds.answers
    · rw [trace, keyed_append, consumed_append, state, ignoresPress]
      exact congrArg (consumed · _) heeds.ignoresPress

/-- What an act that comes next is answered with. -/
structure AnswersNext (build : Build) (t : Tab σ) (x : Turn) : Prop where
  /-- A key event that asks for an answer and is not dropped is answered once. -/
  once : ∀ e, x.act.key? = some e → e.wantsReply = true → t.drops e = false → ∃ status,
    keyed t.id (t.turn build x).trace = [(e, status)] ∧
      keyAnswers (t.turn build x).trace = [(e, decide (status = .consumeNoDefault))]
  /-- Nothing else is answered. -/
  never : (∀ e, x.act.key? = some e → e.wantsReply = true → t.drops e = true) →
    keyAnswers (t.turn build x).trace = []

theorem answersNext (build : Build) {x : Turn} {t : Tab σ}
    (h : Seat.HeedsKeys (t.seat x) (t.heededKey? x.act) (Seat.act build x.act (t.seat x))) :
    t.AnswersNext build x := by
  have handed : (keyed t.id (t.turn build x).trace).map Prod.fst =
      (t.heededKey? x.act).toList := h.handed
  have answers : keyAnswers (t.turn build x).trace =
      (keyed t.id (t.turn build x).trace).filterMap answerTo? := h.answers
  constructor
  · intro e key wants kept
    rw [heededKey?, key, Option.filter_some, kept] at handed
    obtain ⟨⟨e', status⟩, one, same⟩ := List.map_eq_singleton_iff.mp handed
    obtain rfl : e' = e := same
    have due : answerTo? (e', status) = some (e', decide (status = .consumeNoDefault)) :=
      if_pos wants
    refine ⟨status, one, ?_⟩
    rw [answers, one, List.filterMap_cons_some due, List.filterMap_nil]
  · intro dropped
    rw [answers, List.filterMap_eq_nil_iff]
    rintro ⟨e, status⟩ hk
    have mem : e ∈ (t.heededKey? x.act).toList := by
      rw [← handed]
      exact List.mem_map_of_mem hk
    rw [Option.mem_toList, heededKey?, Option.filter_eq_some_iff] at mem
    obtain ⟨key, kept⟩ := mem
    cases wants : e.wantsReply with
    | false => simp [answerTo?, wants]
    | true =>
      rw [dropped e key wants] at kept
      cases kept

/-- A run of a live tab answers the key events that it hands to content and that ask for it. -/
structure KeysAnswered (build : Build) (t : Tab σ) (xs : List Turn) : Prop extends
    HeedsRun build t xs where
  /-- So it is with what comes next. -/
  next : ∀ x : Turn, x.act.tearsDown = false →
    ((t.turns build xs).state.turn build x).fault = none →
    (t.turns build xs).state.AnswersNext build x
  /-- What is dropped then is a repeat that content is behind with, or a keypress of a keydown
  that content consumed. -/
  dropped : ∀ e, (t.turns build xs).state.drops e = true ↔
    (t.settings.skipRepeats = true ∧ (t.turns build xs).state.keys.skips e = true) ∨
      (e.action = .press ∧
        consumed t.keys.ignoresPress (keyed t.id (t.turns build xs).trace) = true)
  /-- What the parent does not allow to be dropped is not dropped, unless it is a keypress. -/
  kept : ∀ e, e.skippable = false → e.action ≠ .press →
    (t.turns build xs).state.drops e = false

/-- Whatever is done to a live tab over an open link, short of tearing it down: the key events
that are not dropped and ask for an answer are answered, each once and in their order, and no
others. -/
theorem keys_answered (build : Build) {t : Tab σ} {xs : List Turn} {l : ParentLink}
    (live : t.state.isLive = true) (ipcOpen : t.ipcOpen = true) (link : t.link = some l)
    (isOpen : l.isOpen = true) (spared : ∀ x ∈ xs, x.act.tearsDown = false)
    (there : ∀ x ∈ xs, x.act.isHangUp = false) (fault : (t.turns build xs).fault = none) :
    t.KeysAnswered build xs := by
  obtain ⟨standing, heeds⟩ := heedsRun_turns build live ipcOpen link isOpen spared there fault
  have settings : (t.turns build xs).state.settings = t.settings :=
    congrArg Standing.settings standing
  have live' : (t.turns build xs).state.state = t.state := congrArg Standing.state standing
  refine ⟨heeds, fun x hx hf => ?_, fun e => ?_, fun e unskippable other => ?_⟩
  · exact answersNext build (Seat.heedsKeys_act build
      (s := (t.turns build xs).state.seat x) (by rw [seat, live']; exact live) hx
      ((congrArg Standing.ipcOpen standing).trans ipcOpen)
      ((congrArg Standing.link standing).trans link) isOpen hf)
  · rw [drops_iff, settings, heeds.ignoresPress]
  · rw [← Bool.not_eq_true, drops_iff]
    rintro (⟨-, skips⟩ | ⟨press, -⟩)
    · rw [KeyFilter.skippable_of_skips skips] at unskippable
      cases unskippable
    · exact other press

/-- A live tab whose content consumes every key. -/
def consuming : Tab Headless :=
  (create { value := 7 } {} { status := .consumeNoDefault }).connected { tab := { value := 7 } }

/-- A key that is pressed, and asks for an answer each time. -/
def pressed (action : KeyAction) : KeyEvent :=
  { action, key := .character "j", wantsReply := true }

/-- A turn in which a key event is delivered. -/
def keyTurn (e : KeyEvent) : Turn :=
  { around := {}, act := .request { tab := { value := 7 }, request := .key e } }

/-- The keydown is answered; the keypress behind it is dropped. -/
theorem keys_answered_consumed :
    keyAnswers (consuming.turns .checked [keyTurn (pressed .down)]).trace =
        [(pressed .down, true)] ∧
      keyAnswers ((consuming.turns .checked [keyTurn (pressed .down)]).state.turn .checked
        (keyTurn (pressed .press))).trace = [] := by
  have spared : ∀ x ∈ [keyTurn (pressed .down)], x.act.tearsDown = false := by decide
  have answered := keys_answered .checked (t := consuming) rfl rfl rfl rfl spared (by decide) rfl
  refine ⟨answered.answers, (answered.next (keyTurn (pressed .press)) rfl rfl).never ?_⟩
  intro e key _
  cases key
  exact (answered.dropped _).mpr (Or.inr ⟨rfl, rfl⟩)

/-- A key event that asks for an answer is not always answered. -/
theorem keys_unanswered : ¬∀ xs : List Turn,
    (∀ x ∈ xs, x.act.tearsDown = false) → (∀ x ∈ xs, x.act.isHangUp = false) →
    (consuming.turns .checked xs).fault = none →
    (keyAnswers (consuming.turns .checked xs).trace).map Prod.fst =
      (xs.filterMap fun x => x.act.key?).filter fun e => e.wantsReply := by
  intro claim
  have all := claim [keyTurn (pressed .down), keyTurn (pressed .press)] (by decide) (by decide) rfl
  cases all

end Tab

end TabHost
