import TabHost.Proofs.Content.Reactions
import TabHost.Tab.Requests

/-!
# What operations leave alone

An operation of a live tab that does not tear it down changes nothing of its standing:
its stage of life, its link and whether the link is taken to be open. `Seat.Works` says so,
together with what the operation may do to the world. It holds of doing nothing and of
operations in sequence (`Works.ok`, `Works.andThen`), so it holds of every operation that
is put together from such ones.

There are two families. Input reaches content and leaves rendering alone (`Seat.Feeds`);
rendering and activation only notify content, and leave pointer input alone
(`Seat.Notifies`).
-/

set_option linter.unusedSectionVars false

namespace TabHost

/-! ## Surfaces -/

/-- Every entry that was not there before belongs to a tab. -/
def Surfaces.GrantsOnly (tab : TabId) (before after : Surfaces) : Prop :=
  ∀ surface e, after.entries.get? surface = some e → e.handle.tab = tab ∨
    ∃ e', before.entries.get? surface = some e' ∧ e'.handle = e.handle

/-- A lease does not concern the entries. -/
theorem Surfaces.entries_dropAny (surface : Option SurfaceId) (h : Option Handle)
    (s : Surfaces) : (s.dropAny surface h).entries = (s.unregisterAny surface).entries := by
  cases h <;> rfl

namespace Surfaces.GrantsOnly

variable {tab : TabId} {a b c : Surfaces}

theorem refl (tab : TabId) (a : Surfaces) : GrantsOnly tab a a :=
  fun _ e h => Or.inr ⟨e, h, rfl⟩

theorem trans (h : GrantsOnly tab a b) (h' : GrantsOnly tab b c) : GrantsOnly tab a c := by
  intro surface e he
  rcases h' surface e he with ht | ⟨e', he', heq⟩
  · exact Or.inl ht
  · rcases h surface e' he' with ht | ⟨e'', he'', heq'⟩
    · exact Or.inl (heq ▸ ht)
    · exact Or.inr ⟨e'', he'', heq'.trans heq⟩

theorem setVisible (tab : TabId) (surface : SurfaceId) (visible : Bool) (a : Surfaces) :
    GrantsOnly tab a (a.setVisible surface visible) := by
  intro surface' e he
  simp only [Surfaces.setVisible, Table.get?_modify] at he
  split at he
  · obtain ⟨e', he', rfl⟩ := Option.map_eq_some_iff.mp he
    exact Or.inr ⟨e', he', rfl⟩
  · exact Or.inr ⟨e, he, rfl⟩

theorem dropAny (tab : TabId) (s : Option SurfaceId) (h : Option Handle) (a : Surfaces) :
    GrantsOnly tab a (a.dropAny s h) := by
  intro surface e he
  rw [entries_dropAny] at he
  cases s with
  | none => exact Or.inr ⟨e, he, rfl⟩
  | some s =>
    simp only [unregisterAny, unregister, Table.get?_erase] at he
    split at he
    · cases he
    · exact Or.inr ⟨e, he, rfl⟩

/-- A registration adds one entry, for the tab of the handle. -/
theorem register? {surface : SurfaceId} {h : Handle} (hb : a.register? surface h = some b) :
    GrantsOnly h.tab a b := by
  unfold Surfaces.register? at hb
  split at hb
  · cases hb
  · cases hb
    intro surface' e he
    simp only [Table.get?_insert] at he
    split at he
    · cases he
      exact Or.inl rfl
    · exact Or.inr ⟨e, he, rfl⟩

end Surfaces.GrantsOnly

/-! ## The standing of a tab -/

/-- Only a farewell changes a link. -/
theorem ParentLink.send?_of_ne {r : Reply} (hr : r ≠ .channelClose) (l : ParentLink) :
    l.send? r = if l.isOpen then some ({ tab := l.tab, reply := r }, l) else none := by
  cases r with
  | channelClose => exact absurd rfl hr
  | _ => rfl

/-- What a tab keeps as long as it goes about its work. -/
structure Standing where
  id : TabId
  settings : Settings
  state : Lifecycle
  ipcOpen : Bool
  link : Option ParentLink
  contentDestroyed : Bool

/-- The standing of a tab. -/
def Tab.standing {σ : Type} (t : Tab σ) : Standing :=
  { id := t.id
    settings := t.settings
    state := t.state
    ipcOpen := t.ipcOpen
    link := t.link
    contentDestroyed := t.contentDestroyed }

/-- What a tab may do to the world: call its own content, and send over its link while the
link is taken to be open. -/
inductive Tab.Does {σ : Type} (t : Tab σ) (C : Call → Prop) (R : Reply → Prop) : Effect → Prop
  | call {c : Call} (h : C c) : Tab.Does t C R (.call t.id c)
  | sent {l : ParentLink} {r : Reply} (ipc : t.ipcOpen = true) (link : t.link = some l)
      (isOpen : l.isOpen = true) (h : R r) :
      Tab.Does t C R (.sent l.route { tab := l.tab, reply := r })

namespace Tab.Does

variable {σ : Type} {t u : Tab σ} {C C' : Call → Prop} {R R' : Reply → Prop} {e : Effect}

theorem mono (hC : ∀ c, C c → C' c) (hR : ∀ r, R r → R' r) (h : t.Does C R e) :
    t.Does C' R' e := by
  cases h with
  | call h => exact .call (hC _ h)
  | sent ipc link isOpen h => exact .sent ipc link isOpen (hR _ h)

theorem of_standing (heq : u.standing = t.standing) (h : u.Does C R e) : t.Does C R e := by
  have hid : u.id = t.id := congrArg Standing.id heq
  cases h with
  | call h =>
    rw [hid]
    exact .call h
  | sent ipc link isOpen h =>
    exact .sent ((congrArg Standing.ipcOpen heq).symm.trans ipc)
      ((congrArg Standing.link heq).symm.trans link) isOpen h

end Tab.Does

/-! ## The calls in a trace -/

theorem callsOf_append (tab : TabId) (a b : List Effect) :
    callsOf tab (a ++ b) = callsOf tab a ++ callsOf tab b :=
  List.filterMap_append

@[simp] theorem callsOf_map_call (tab : TabId) (calls : List Call) :
    callsOf tab (calls.map (.call tab)) = calls := by
  simp [callsOf, Effect.callOf?, List.filterMap_map, Function.comp_def]

/-- The message of a tab to its parent, over whatever link. -/
def Effect.replyOf? (tab : TabId) : Effect → Option Reply
  | .sent _ o => if o.tab = tab then some o.reply else none
  | _ => none

/-- The messages of a tab to its parent. -/
def saidBy (tab : TabId) (trace : List Effect) : List Reply :=
  trace.filterMap (Effect.replyOf? tab)

theorem saidBy_append (tab : TabId) (a b : List Effect) :
    saidBy tab (a ++ b) = saidBy tab a ++ saidBy tab b :=
  List.filterMap_append

theorem mem_saidBy {tab : TabId} {trace : List Effect} {r : Reply} :
    r ∈ saidBy tab trace ↔ ∃ route, .sent route { tab := tab, reply := r } ∈ trace := by
  simp only [saidBy, List.mem_filterMap]
  constructor
  · rintro ⟨e, he, hr⟩
    cases e with
    | sent route o =>
      simp only [Effect.replyOf?] at hr
      split at hr
      · next ht =>
        cases hr
        exact ⟨route, by rw [← ht]; exact he⟩
      · cases hr
    | created => cases hr
    | call => cases hr
  · rintro ⟨route, h⟩
    exact ⟨_, h, by simp [Effect.replyOf?]⟩

theorem mem_callsOf {tab : TabId} {trace : List Effect} {c : Call} :
    c ∈ callsOf tab trace ↔ .call tab c ∈ trace := by
  simp only [callsOf, List.mem_filterMap]
  constructor
  · rintro ⟨e, he, hc⟩
    cases e with
    | call t c' =>
      simp only [Effect.callOf?] at hc
      split at hc
      · next ht =>
        cases hc
        exact ht ▸ he
      · cases hc
    | created => cases hc
    | sent => cases hc
  · intro h
    exact ⟨_, h, by simp [Effect.callOf?]⟩

/-- Whether an effect comes of a tab. -/
def Effect.isOf (tab : TabId) : Effect → Bool
  | .created _ => false
  | .call t _ => t = tab
  | .sent _ o => o.tab = tab

theorem callsOf_filter_isOf (tab : TabId) (trace : List Effect) :
    callsOf tab (trace.filter (Effect.isOf tab)) = callsOf tab trace := by
  unfold callsOf
  rw [List.filterMap_filter]
  refine congrFun (congrArg _ (funext fun e => ?_)) _
  cases e <;> simp [Effect.isOf, Effect.callOf?]

theorem saidBy_filter_isOf (tab : TabId) (trace : List Effect) :
    saidBy tab (trace.filter (Effect.isOf tab)) = saidBy tab trace := by
  unfold saidBy
  rw [List.filterMap_filter]
  refine congrFun (congrArg _ (funext fun e => ?_)) _
  cases e <;> simp [Effect.isOf, Effect.replyOf?]

/-! ## Operations that go about a tab's work -/

namespace Seat

variable {σ : Type} [Content σ] {C C' : Call → Prop} {R R' : Reply → Prop}
  {s : Seat σ} {o : Outcome Effect (Seat σ)}

/-- An operation that keeps the standing of the tab, hands content only some calls and
sends only some replies. -/
structure Works (C : Call → Prop) (R : Reply → Prop) (s : Seat σ)
    (o : Outcome Effect (Seat σ)) : Prop where
  standing : o.state.tab.standing = s.tab.standing
  isSome : o.state.tab.moves.isSome = s.tab.moves.isSome
  queue : o.state.shared.queue = s.shared.queue
  grants : Surfaces.GrantsOnly s.tab.id s.shared.surfaces o.state.shared.surfaces
  effects : ∀ e ∈ o.trace, s.tab.Does C R e

namespace Works

theorem id (h : Works C R s o) : o.state.tab.id = s.tab.id := congrArg Standing.id h.standing

theorem state (h : Works C R s o) : o.state.tab.state = s.tab.state :=
  congrArg Standing.state h.standing

theorem ok (s : Seat σ) : Works C R s (.ok s) :=
  ⟨rfl, rfl, rfl, .refl _ _, fun _ he => absurd he List.not_mem_nil⟩

theorem calls (h : Works C R s o) {tab : TabId} {c : Call} (hc : c ∈ callsOf tab o.trace) :
    C c := by
  have he := h.effects _ (mem_callsOf.mp hc)
  generalize hcall : Effect.call tab c = e at he
  cases he with
  | call h =>
    cases hcall
    exact h
  | sent => cases hcall

theorem replies (h : Works C R s o) {tab : TabId} {r : Reply} (hr : r ∈ saidBy tab o.trace) :
    R r := by
  obtain ⟨route, he⟩ := mem_saidBy.mp hr
  have he := h.effects _ he
  generalize hsent : Effect.sent route { tab := tab, reply := r } = e at he
  cases he with
  | call => cases hsent
  | sent _ _ _ h =>
    cases hsent
    exact h

theorem mono (hC : ∀ c, C c → C' c) (hR : ∀ r, R r → R' r) (h : Works C R s o) :
    Works C' R' s o :=
  ⟨h.standing, h.isSome, h.queue, h.grants, fun e he => (h.effects e he).mono hC hR⟩

theorem andThen {f : Operation σ} (h : Works C R s o)
    (hf : o.fault = none → Works C R o.state (f o.state)) : Works C R s (o.andThen f) := by
  cases ho : o.fault with
  | some e =>
    rw [Outcome.andThen_of_fault ho]
    exact h
  | none =>
    have hf := hf ho
    have grants := hf.grants
    rw [h.id] at grants
    rw [← Outcome.state_andThen ho f] at grants
    refine ⟨?_, ?_, ?_, h.grants.trans grants, fun e he => ?_⟩
    · rw [Outcome.state_andThen ho, hf.standing, h.standing]
    · rw [Outcome.state_andThen ho, hf.isSome, h.isSome]
    · rw [Outcome.state_andThen ho, hf.queue, h.queue]
    · rw [Outcome.trace_andThen ho] at he
      rcases List.mem_append.mp he with he | he
      · exact h.effects e he
      · exact (hf.effects e he).of_standing h.standing

end Works

/-! ## Input -/

/-- An operation that hands content input, and answers keys. -/
structure Feeds (s : Seat σ) (o : Outcome Effect (Seat σ)) : Prop extends
    Works (fun c => c.isInput = true) (fun r => ∃ e p, r = .keyHandled e p) s o where
  epoch : o.state.tab.epoch = s.tab.epoch
  gate : o.state.tab.gate = s.tab.gate
  surface : o.state.tab.surface = s.tab.surface
  handle : o.state.tab.handle = s.tab.handle
  surfaces : o.state.shared.surfaces = s.shared.surfaces

namespace Feeds

theorem ok (s : Seat σ) : Feeds s (.ok s) := ⟨.ok s, rfl, rfl, rfl, rfl, rfl⟩

theorem andThen {f : Operation σ} (h : Feeds s o)
    (hf : o.fault = none → Feeds o.state (f o.state)) : Feeds s (o.andThen f) := by
  have works := h.toWorks.andThen fun ho => (hf ho).toWorks
  cases ho : o.fault with
  | some e =>
    rw [Outcome.andThen_of_fault ho]
    exact h
  | none =>
    have hf := hf ho
    refine ⟨works, ?_, ?_, ?_, ?_, ?_⟩ <;> rw [Outcome.state_andThen ho]
    · rw [hf.epoch, h.epoch]
    · rw [hf.gate, h.gate]
    · rw [hf.surface, h.surface]
    · rw [hf.handle, h.handle]
    · rw [hf.surfaces, h.surfaces]

theorem of_onMoves {f : MoveBatch → MoveBatch} (h : Feeds (s.onMoves f) o) : Feeds s o := by
  have same : (s.onMoves f).tab.standing = s.tab.standing := rfl
  exact ⟨⟨h.standing, h.isSome.trans (by simp [onMoves]), h.queue, h.grants,
    fun e he => (h.effects e he).of_standing same⟩, h.epoch, h.gate, h.surface, h.handle,
    h.surfaces⟩

theorem of_setKeys {f : KeyFilter} (h : Feeds (s.setKeys f) o) : Feeds s o := by
  have same : (s.setKeys f).tab.standing = s.tab.standing := rfl
  exact ⟨⟨h.standing, h.isSome, h.queue, h.grants,
    fun e he => (h.effects e he).of_standing same⟩, h.epoch, h.gate, h.surface, h.handle,
    h.surfaces⟩

end Feeds

theorem feeds_perform {f : Stage σ → Outcome Call (Stage σ)} (s : Seat σ)
    (hf : ∀ c ∈ (f s.stage).trace, c.isInput = true) : Feeds s (perform f s) := by
  refine ⟨⟨rfl, ?_, rfl, .refl _ _, fun e he => ?_⟩, rfl, rfl, rfl, rfl, rfl⟩
  · simp [perform, leaveStage]
  · obtain ⟨c, hc, rfl⟩ := List.mem_map.mp he
    exact .call (hf c hc)

theorem feeds_drain (s : Seat σ) : Feeds s (drain s) :=
  feeds_perform s fun _ => Stage.isInput_of_mem_drain

theorem feeds_pointerEvent (e : PointerEvent) (s : Seat σ) : Feeds s (pointerEvent e s) := by
  unfold pointerEvent
  split
  · exact .ok s
  · exact (feeds_drain _).of_onMoves

theorem feeds_pointerMove (e : PointerMove) (s : Seat σ) : Feeds s (pointerMove e s) := by
  unfold pointerMove
  split
  · split
    · exact .ok s
    · dsimp only
      split
      · exact (feeds_drain _).of_onMoves
      · exact (Feeds.ok _).of_onMoves
  · exact feeds_pointerEvent _ s

theorem feeds_flushInput (s : Seat σ) : Feeds s (flushInput s) := by
  unfold flushInput
  split
  · split
    · exact .ok s
    · split
      · exact .ok s
      · exact (feeds_drain _).of_onMoves
  · exact .ok s

theorem feeds_performWheel {f : WheelBatch × Stage σ → Outcome Call (WheelBatch × Stage σ)}
    (s : Seat σ) (hf : WheelBatch.Handles (s.tab.wheel, s.stage) (f (s.tab.wheel, s.stage))) :
    Feeds s (performWheel f s) := by
  refine ⟨⟨rfl, ?_, rfl, .refl _ _, fun e he => ?_⟩, rfl, rfl, rfl, rfl, rfl⟩
  · simp [performWheel, leaveStage]
  · obtain ⟨c, hc, rfl⟩ := List.mem_map.mp he
    obtain ⟨e, rfl⟩ := hf.wheel c hc
    exact .call rfl

/-- What a tab does with a wheel event once nothing waits. -/
theorem handles_wheelEvent (batch : Bool) (e : WheelEvent) (nextIsWheel : Bool)
    (s : WheelBatch × Stage σ) :
    WheelBatch.Handles s
      ((if batch then WheelBatch.handle e nextIsWheel
        else fun r => (WheelBatch.dispatchPending r).andThen (WheelBatch.dispatch e)) s) := by
  split
  · exact WheelBatch.handles_handle e nextIsWheel s
  · exact (WheelBatch.handles_dispatchPending s).andThen
      fun _ => WheelBatch.handles_dispatch e _

theorem feeds_wheelEvent (e : WheelEvent) (nextIsWheel : Bool) (s : Seat σ) :
    Feeds s (wheelEvent e nextIsWheel s) :=
  (feeds_flushInput s).andThen fun _ =>
    feeds_performWheel _ (handles_wheelEvent _ e nextIsWheel _)

/-- A message that is no farewell is dropped, or goes out and changes nothing. -/
theorem send_cases {r : Reply} (hr : r ≠ .channelClose) (s : Seat σ) :
    send r s = .ok s ∨ ∃ l, s.tab.ipcOpen = true ∧ s.tab.link = some l ∧ l.isOpen = true ∧
      send r s = .emit (.sent l.route { tab := l.tab, reply := r }) s := by
  unfold send
  cases hipc : s.tab.ipcOpen with
  | false => exact Or.inl rfl
  | true =>
    cases hl : s.tab.link with
    | none => exact Or.inl rfl
    | some l =>
      cases hopen : l.isOpen with
      | false =>
        left
        simp [ParentLink.send?_of_ne hr, hopen]
      | true =>
        refine Or.inr ⟨l, rfl, rfl, hopen, ?_⟩
        have same : { s.tab with link := some l } = s.tab := by rw [← hl]
        simp [ParentLink.send?_of_ne hr, hopen, same]

theorem send_of_open {r : Reply} (hr : r ≠ .channelClose) {s : Seat σ} {l : ParentLink}
    (hipc : s.tab.ipcOpen = true) (hl : s.tab.link = some l) (hopen : l.isOpen = true) :
    send r s = .emit (.sent l.route { tab := l.tab, reply := r }) s := by
  have sent : l.send? r = some ({ tab := l.tab, reply := r }, l) := by
    rw [ParentLink.send?_of_ne hr, if_pos hopen]
  have same : { s.tab with link := some l } = s.tab := by rw [← hl]
  simp only [send, if_pos hipc, hl, sent, same]

theorem send_of_gone {r : Reply} (hr : r ≠ .channelClose) {s : Seat σ}
    (gone : ∀ l, s.tab.link = some l → l.isOpen = false) : send r s = .ok s := by
  rcases send_cases hr s with h | ⟨l, -, hl, hopen, -⟩
  · exact h
  · rw [gone l hl] at hopen
    cases hopen

theorem calls_send {r : Reply} (hr : r ≠ .channelClose) (tab : TabId) (s : Seat σ) :
    callsOf tab (send r s).trace = [] := by
  rcases send_cases hr s with h | ⟨l, -, -, -, h⟩ <;> rw [h] <;> rfl

theorem works_send {r : Reply} (hr : r ≠ .channelClose) (hR : R r) (s : Seat σ) :
    Works C R s (send r s) := by
  rcases send_cases hr s with h | ⟨l, hipc, hl, hopen, h⟩
  · rw [h]
    exact .ok s
  · rw [h]
    refine ⟨rfl, rfl, rfl, .refl _ _, fun e he => ?_⟩
    rw [List.mem_singleton.mp he]
    exact .sent hipc hl hopen hR

theorem feeds_send_keyHandled (e : KeyEvent) (p : Bool) (s : Seat σ) :
    Feeds s (send (.keyHandled e p) s) := by
  have works : Works (fun c => c.isInput = true) (fun r => ∃ e p, r = .keyHandled e p) s
      (send (.keyHandled e p) s) := works_send (by simp) ⟨e, p, rfl⟩ s
  rcases send_cases (r := .keyHandled e p) (by simp) s with h | ⟨l, -, -, -, h⟩ <;>
    exact ⟨works, by rw [h]; rfl, by rw [h]; rfl, by rw [h]; rfl, by rw [h]; rfl, by rw [h]; rfl⟩

theorem feeds_dispatchKey (e : KeyEvent) (s : Seat σ) : Feeds s (dispatchKey e s) := by
  unfold dispatchKey
  refine (feeds_perform s fun c hc => ?_).andThen fun _ => ?_
  · rw [Stage.key, Stage.trace_perform, List.mem_singleton] at hc
    rw [hc]
    rfl
  · unfold replyKey
    split
    · exact (feeds_send_keyHandled _ _ _).of_setKeys
    · exact (Feeds.ok _).of_setKeys

theorem feeds_unlessSuppressed (e : KeyEvent) (s : Seat σ) : Feeds s (unlessSuppressed e s) := by
  unfold unlessSuppressed
  split
  · exact .ok s
  · exact feeds_dispatchKey e s

theorem feeds_keyEvent (e : KeyEvent) (s : Seat σ) : Feeds s (keyEvent e s) := by
  refine (feeds_flushInput s).andThen fun _ => ?_
  dsimp only
  split
  · split
    · exact (Feeds.ok _).of_setKeys
    · exact (feeds_unlessSuppressed e _).of_setKeys
  · exact feeds_unlessSuppressed e _

/-! ## Rendering and activation -/

/-- An operation that only notifies content of changes, and acknowledges them. -/
structure Notifies (s : Seat σ) (o : Outcome Effect (Seat σ)) : Prop extends
    Works (fun c => ∃ n, n ≠ .destroy ∧ c = .notice n) (fun r => ∃ e, r = .acknowledge e) s o where
  moves : o.state.tab.moves = s.tab.moves
  wheel : o.state.tab.wheel = s.tab.wheel
  content : o.state.tab.content = Content.after s.tab.content (callsOf s.tab.id o.trace)

namespace Notifies

theorem ok (s : Seat σ) : Notifies s (.ok s) := ⟨.ok s, rfl, rfl, rfl⟩

theorem andThen {f : Operation σ} (h : Notifies s o)
    (hf : o.fault = none → Notifies o.state (f o.state)) : Notifies s (o.andThen f) := by
  have works := h.toWorks.andThen fun ho => (hf ho).toWorks
  cases ho : o.fault with
  | some e =>
    rw [Outcome.andThen_of_fault ho]
    exact h
  | none =>
    have hf := hf ho
    have hid := h.id
    refine ⟨works, ?_, ?_, ?_⟩
    · rw [Outcome.state_andThen ho, hf.moves, h.moves]
    · rw [Outcome.state_andThen ho, hf.wheel, h.wheel]
    · rw [Outcome.state_andThen ho, Outcome.trace_andThen ho, hf.content, h.content, hid,
        callsOf_append, Content.after_append]

/-- What does not concern content or input may be changed before. -/
theorem of_same {s' : Seat σ} (h : Notifies s' o) (standing : s'.tab.standing = s.tab.standing)
    (moves : s'.tab.moves = s.tab.moves) (wheel : s'.tab.wheel = s.tab.wheel)
    (content : s'.tab.content = s.tab.content) (queue : s'.shared.queue = s.shared.queue)
    (grants : Surfaces.GrantsOnly s.tab.id s.shared.surfaces s'.shared.surfaces) :
    Notifies s o := by
  have hid : s'.tab.id = s.tab.id := congrArg Standing.id standing
  have hg := h.grants
  rw [hid] at hg
  refine ⟨⟨h.standing.trans standing, ?_, h.queue.trans queue, grants.trans hg,
    fun e he => (h.effects e he).of_standing standing⟩, h.moves.trans moves,
    h.wheel.trans wheel, ?_⟩
  · rw [h.isSome, moves]
  · rw [h.content, content, hid]

theorem of_setGate {g : Gate} (h : Notifies (s.setGate g) o) : Notifies s o :=
  h.of_same rfl rfl rfl rfl rfl (.refl _ _)

end Notifies

theorem notifies_notify {n : Notice} (hn : n ≠ .destroy) (s : Seat σ) :
    Notifies s (notify n s) := by
  refine ⟨⟨rfl, rfl, rfl, .refl _ _, fun e he => ?_⟩, rfl, rfl, ?_⟩
  · rw [List.mem_singleton.mp he]
    exact .call ⟨n, hn, rfl⟩
  · simp [notify, Outcome.emit, callsOf, Effect.callOf?, Content.after, Content.react]

theorem notifies_send_acknowledge (epoch : Epoch) (s : Seat σ) :
    Notifies s (send (.acknowledge epoch) s) := by
  have works : Works (fun c => ∃ n, n ≠ .destroy ∧ c = .notice n)
      (fun r => ∃ e, r = .acknowledge e) s (send (.acknowledge epoch) s) :=
    works_send (by simp) ⟨epoch, rfl⟩ s
  rcases send_cases (r := .acknowledge epoch) (by simp) s with h | ⟨l, -, -, -, h⟩ <;>
    exact ⟨works, by rw [h]; rfl, by rw [h]; rfl, by rw [h]; rfl⟩

/-- Marking a surface does not concern the tab. -/
@[simp] theorem tab_markSurface (visible : Bool) (s : Seat σ) :
    (s.markSurface visible).tab = s.tab := by
  unfold markSurface
  split <;> rfl

theorem notifies_markSurface (visible : Bool) {s : Seat σ}
    (h : Notifies (s.markSurface visible) o) : Notifies s o := by
  unfold markSurface at h
  split at h
  · exact h
  · exact h.of_same rfl rfl rfl rfl rfl (.setVisible _ _ _ _)

theorem notifies_applyRender (enabled forceRepaint : Bool) (epoch : Epoch) (s : Seat σ) :
    Notifies s (applyRender enabled forceRepaint epoch s) := by
  refine (notifies_notify (by simp) s).andThen fun _ => ?_
  split
  · split
    · exact notifies_send_acknowledge epoch _
    · refine notifies_markSurface true ((notifies_notify (by simp) _).andThen fun _ => ?_)
      unfold paint
      split <;> exact notifies_notify (by simp) _
  · exact notifies_markSurface false ((notifies_notify (by simp) _).andThen
      fun _ => notifies_notify (by simp) _)

theorem notifies_requestRender (enabled forceRepaint : Bool) (epoch : Epoch) (s : Seat σ) :
    Notifies s (requestRender enabled forceRepaint epoch s) := by
  unfold requestRender
  split
  · exact .ok s
  · dsimp only
    split
    · exact (Notifies.ok _).of_same rfl rfl rfl rfl rfl (.refl _ _)
    · exact (notifies_applyRender _ _ _ _).of_same rfl rfl rfl rfl rfl (.refl _ _)

theorem notifies_paintWhileInterrupting (epoch : Epoch) (forceRepaint : Bool) (s : Seat σ) :
    Notifies s (paintWhileInterrupting epoch forceRepaint s) := by
  unfold paintWhileInterrupting
  split
  · exact notifies_requestRender _ _ _ s
  · exact .ok s

theorem notifies_setActive (active : Bool) (s : Seat σ) : Notifies s (setActive active s) := by
  unfold setActive
  split
  · exact (Notifies.ok _).of_setGate
  · exact notifies_notify (by simp) s

theorem notifies_replay (r : GateReplay) (s : Seat σ) : Notifies s (replay r s) := by
  unfold replay
  refine Notifies.andThen ?_ fun _ => ?_
  · unfold replayActive
    split
    · exact .ok s
    · exact notifies_notify (by simp) s
  · unfold replayRender
    split
    · exact .ok _
    · exact notifies_applyRender _ _ _ _

theorem notifies_addBlocker (build : Build) (s : Seat σ) : Notifies s (addBlocker build s) := by
  unfold addBlocker Gate.addBlocker
  split
  · split
    · exact ⟨⟨rfl, rfl, rfl, .refl _ _, fun e he => absurd he List.not_mem_nil⟩, rfl, rfl, rfl⟩
    · exact (Notifies.ok _).of_setGate
  · exact .ok s

theorem notifies_violation (build : Build) (tab : TabId) (v : Violation) (s : Seat σ) :
    Notifies s (.violation build tab v s) := by
  cases build with
  | checked =>
    exact ⟨⟨rfl, rfl, rfl, .refl _ _, fun e he => absurd he List.not_mem_nil⟩, rfl, rfl, rfl⟩
  | unchecked => exact .ok s

theorem notifies_removeBlocker (build : Build) (s : Seat σ) :
    Notifies s (removeBlocker build s) := by
  unfold removeBlocker
  split
  · split
    · exact notifies_violation _ _ _ s
    · exact (Notifies.ok _).of_setGate
    · exact (notifies_replay _ _).of_setGate
  · exact .ok s

/-- Attaching to a surface registers a handle of the tab, and gives up the handle before. -/
theorem notifies_initRendering (surface : SurfaceId) (s : Seat σ) :
    Notifies s (.ok (s.initRendering surface)) := by
  unfold initRendering
  split
  · exact .ok s
  · dsimp only
    split
    · exact .ok s
    · next surfaces h =>
      refine (Notifies.ok _).of_same rfl rfl rfl rfl rfl ?_
      have granted : Surfaces.GrantsOnly s.tab.id s.shared.surfaces surfaces :=
        (Surfaces.GrantsOnly.register? h)
      exact (granted.trans (.dropAny _ _ _ _)).trans (.setVisible _ _ _ _)

end Seat

end TabHost
