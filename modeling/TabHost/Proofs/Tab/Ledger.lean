import TabHost.Proofs.Batch.Order
import TabHost.Proofs.Tab.Turn

/-!
# What becomes of pointer input

To the batch of moves of a tab, everything that is done to the tab is an arrival
(`Act.arrival`), and what a live tab does is one of a few things, told by the arrival
(`Seat.handling_act`). An operation that works off pointer input hands content what was
ready for dispatch, and behind it what content pushes meanwhile, as far as it does not leave
it in the queue (`Seat.Accounts`). So a live tab accounts for all its pointer input, whatever
is done to it short of tearing it down (`Seat.accounts_act`).
-/

set_option linter.unusedSectionVars false

namespace TabHost

/-- What a request is to a batch of moves, which keeps moves back or does not. -/
def Request.arrival (batch : Bool) : Request → Arrival
  | .pointerMove m => if batch then .keep m else .behind (.move m)
  | .synthPointerMove m => .behind (.move m)
  | .button b => .behind (.button b)
  | .wheel _ => .flush
  | .key _ => .flush
  | _ => .other

/-- What an act is to a batch of moves, which keeps moves back or does not. -/
def Act.arrival (batch : Bool) : Act → Arrival
  | .request e => e.request.arrival batch
  | .flush => .flush
  | _ => .other

/-- The events that content pushes outside of any dispatch. -/
def Act.pushes : Act → List PointerEvent
  | .push e => [e]
  | _ => []

/-- The pointer events that the content of a tab is handed. -/
def handed (tab : TabId) (trace : List Effect) : List PointerEvent :=
  (callsOf tab trace).filterMap Call.pointer?

theorem handed_append (tab : TabId) (a b : List Effect) :
    handed tab (a ++ b) = handed tab a ++ handed tab b := by
  rw [handed, callsOf_append, List.filterMap_append]
  rfl

namespace Content

variable {σ : Type} [Content σ]

/-- Content pushes nothing when it is told of changes. -/
theorem pushed_of_notices {c : σ} {calls : List Call} (h : ∀ call ∈ calls, ∃ n, call = .notice n) :
    pushed c calls = [] := by
  induction calls generalizing c with
  | nil => rfl
  | cons call rest ih =>
    obtain ⟨n, rfl⟩ := h call List.mem_cons_self
    exact ih fun call hc => h call (List.mem_cons_of_mem _ hc)

end Content

namespace Seat

variable {σ : Type} [Content σ] {s s' : Seat σ} {o : Outcome Effect (Seat σ)} {b : MoveBatch}
  {m : PointerMove}

/-- From a batch with an operation's own input in it, content is handed what is ready and
what it pushes meanwhile, in this order, up to what is left in the queue. -/
structure Accounts (b : MoveBatch) (s : Seat σ) (o : Outcome Effect (Seat σ)) : Prop where
  content : o.fault = none →
    o.state.tab.content = Content.after s.tab.content (callsOf s.tab.id o.trace)
  moves : o.fault = none → ∃ queue,
    o.state.tab.moves = some { pending := b.pending, queue := queue } ∧
      handed s.tab.id o.trace ++ queue =
        b.queue ++ Content.pushed s.tab.content (callsOf s.tab.id o.trace)

namespace Accounts

theorem ok (h : s.tab.moves = some b) : Accounts b s (.ok s) :=
  ⟨fun _ => rfl, fun _ => ⟨b.queue, h, (List.append_nil _).symm⟩⟩

/-- Only the content of the tab before matters, and its name. -/
theorem of_same (h : Accounts b s' o) (id : s'.tab.id = s.tab.id)
    (content : s'.tab.content = s.tab.content) : Accounts b s o := by
  obtain ⟨hc, hm⟩ := h
  rw [id, content] at hc hm
  exact ⟨hc, hm⟩

theorem of_setKeys {f : KeyFilter} (h : Accounts b (s.setKeys f) o) : Accounts b s o :=
  h.of_same rfl rfl

theorem andThen {f : Operation σ} (h : Accounts b s o) (id : o.state.tab.id = s.tab.id)
    (hf : ∀ queue, o.state.tab.moves = some { pending := b.pending, queue := queue } →
      Accounts { pending := b.pending, queue := queue } o.state (f o.state)) :
    Accounts b s (o.andThen f) := by
  cases ho : o.fault with
  | some e =>
    rw [Outcome.andThen_of_fault ho]
    exact h
  | none =>
    obtain ⟨queue, hmoves, hqueue⟩ := h.moves ho
    have hcontent := h.content ho
    have hf := hf queue hmoves
    constructor
    · intro hn
      rw [Outcome.fault_andThen ho] at hn
      rw [Outcome.state_andThen ho, Outcome.trace_andThen ho, callsOf_append,
        Content.after_append, ← hcontent, ← id]
      exact hf.content hn
    · intro hn
      rw [Outcome.fault_andThen ho] at hn
      obtain ⟨queue', hmoves', hqueue'⟩ := hf.moves hn
      refine ⟨queue', by rw [Outcome.state_andThen ho, hmoves'], ?_⟩
      rw [id, hcontent] at hqueue'
      rw [Outcome.trace_andThen ho, handed_append, callsOf_append, Content.pushed_append,
        List.append_assoc, hqueue', ← List.append_assoc, hqueue, List.append_assoc]

end Accounts

/-! ## Pointers -/

theorem queue_stage (h : s.tab.moves = some b) : s.stage.queue = b.queue := by
  simp [stage, h]

theorem callsOf_perform (f : Stage σ → Outcome Call (Stage σ)) (s : Seat σ) :
    callsOf s.tab.id (perform f s).trace = (f s.stage).trace := callsOf_map_call _ _

theorem moves_onMoves (h : s.tab.moves = some b) (f : MoveBatch → MoveBatch) :
    (s.onMoves f).tab.moves = some (f b) := by
  simp [onMoves, h]

theorem moves_drain (h : s.tab.moves = some b) (hf : (drain s).fault = none) :
    (drain s).state.tab.moves = some { b with queue := [] } := by
  have moves : (drain s).state.tab.moves =
      s.tab.moves.map fun b => { b with queue := s.stage.drain.state.queue } := rfl
  rw [moves, Stage.queue_drain s.stage hf, h]
  rfl

theorem accounts_drain (h : s.tab.moves = some b) : Accounts b s (drain s) := by
  refine ⟨fun hn => ?_, fun hn => ⟨[], moves_drain h hn, ?_⟩⟩
  · rw [drain, callsOf_perform]
    exact Stage.content_drain s.stage hn
  · have told := Stage.trace_drain s.stage hn
    rw [handed, drain, callsOf_perform, List.append_nil]
    conv_lhs => rw [told]
    rw [Call.filterMap_pointer?_map, queue_stage h]
    rfl

theorem pointerEvent_eq_drain (h : s.tab.moves = some b) (e : PointerEvent) :
    pointerEvent e s = drain (s.onMoves fun b => b.flush.enqueue e) := by
  unfold pointerEvent
  rw [h]

theorem accounts_pointerEvent (h : s.tab.moves = some b) (e : PointerEvent) :
    Accounts (b.flush.enqueue e) s (pointerEvent e s) := by
  rw [pointerEvent_eq_drain h]
  exact (accounts_drain (moves_onMoves h fun b => b.flush.enqueue e)).of_same rfl rfl

/-- Nothing waits once an event was handled that is not kept back. -/
theorem moves_pointerEvent (h : s.tab.moves = some b) {e : PointerEvent}
    (hf : (pointerEvent e s).fault = none) :
    (pointerEvent e s).state.tab.moves = some {} := by
  rw [pointerEvent_eq_drain h] at hf ⊢
  exact moves_drain (moves_onMoves h fun b => b.flush.enqueue e) hf

theorem accounts_pointerMove (h : s.tab.moves = some b)
    (batch : s.tab.settings.batchMoves = true) (m : PointerMove) :
    Accounts (b.add PointerMove.sameButtons m) s (pointerMove m s) := by
  have moves := moves_onMoves h fun b => b.add PointerMove.sameButtons m
  unfold pointerMove
  rw [if_pos batch]
  split
  · next hn =>
    rw [h] at hn
    cases hn
  · dsimp only
    split
    · exact (accounts_drain moves).of_same rfl rfl
    · exact (Accounts.ok moves).of_same rfl rfl

theorem eq_empty_of_isIdle (h : b.isIdle = true) : b = {} := by
  simp only [MoveBatch.isIdle, Bool.and_eq_true, List.isEmpty_iff] at h
  obtain ⟨pending, queue⟩ := b
  obtain ⟨rfl, rfl⟩ := h
  rfl

/-- A flush dispatches all that waits, if anything does. -/
theorem flushInput_cases (h : s.tab.moves = some b) (hl : s.tab.state.isLive = true) :
    b.isIdle = true ∧ flushInput s = .ok s ∨
      flushInput s = drain (s.onMoves MoveBatch.flush) := by
  unfold flushInput
  rw [if_pos hl, h]
  dsimp only
  cases hi : b.isIdle with
  | true => exact Or.inl ⟨rfl, if_pos rfl⟩
  | false => exact Or.inr (if_neg (by simp))

/-- Nothing waits after a flush. -/
theorem moves_flushInput (h : s.tab.moves = some b) (hl : s.tab.state.isLive = true)
    (hf : (flushInput s).fault = none) : (flushInput s).state.tab.moves = some {} := by
  rcases flushInput_cases h hl with ⟨hi, heq⟩ | heq <;> rw [heq] at hf ⊢
  · rw [Outcome.state_ok, h, eq_empty_of_isIdle hi]
  · exact moves_drain (moves_onMoves h MoveBatch.flush) hf

theorem accounts_flushInput (h : s.tab.moves = some b) (hl : s.tab.state.isLive = true) :
    Accounts b.flush s (flushInput s) := by
  rcases flushInput_cases h hl with ⟨hi, heq⟩ | heq <;> rw [heq]
  · rw [eq_empty_of_isIdle hi] at h
    rw [eq_empty_of_isIdle hi]
    exact .ok h
  · exact (accounts_drain (moves_onMoves h MoveBatch.flush)).of_same rfl rfl

/-! ## Wheel and keys -/

theorem handed_of_forall {tab : TabId} {trace : List Effect}
    (h : ∀ c ∈ callsOf tab trace, c.pointer? = none) : handed tab trace = [] :=
  List.filterMap_eq_nil_iff.mpr h

/-- What content is handed on stage, apart from pointer events. -/
theorem accounts_of_handles {r : Outcome Call (Stage σ)} (hm : s.tab.moves = some b)
    (h : Stage.Handles s.stage r) (hp : ∀ c ∈ r.trace, c.pointer? = none)
    (calls : callsOf s.tab.id o.trace = r.trace) (fault : o.fault = r.fault)
    (content : o.state.tab.content = r.state.content)
    (moves : o.state.tab.moves = s.tab.moves.map fun b => { b with queue := r.state.queue }) :
    Accounts b s o := by
  refine ⟨fun hn => ?_, fun hn => ⟨r.state.queue, ?_, ?_⟩⟩
  · rw [calls, content]
    exact h.content (fault.symm.trans hn)
  · rw [moves, hm]
    rfl
  · rw [handed_of_forall (by rw [calls]; exact hp), calls, List.nil_append,
      h.queue (fault.symm.trans hn), queue_stage hm]
    rfl

theorem accounts_perform {f : Stage σ → Outcome Call (Stage σ)} (hm : s.tab.moves = some b)
    (h : Stage.Handles s.stage (f s.stage)) (hp : ∀ c ∈ (f s.stage).trace, c.pointer? = none) :
    Accounts b s (perform f s) :=
  accounts_of_handles hm h hp (callsOf_perform f s) rfl rfl rfl

theorem accounts_performWheel {f : WheelBatch × Stage σ → Outcome Call (WheelBatch × Stage σ)}
    (hm : s.tab.moves = some b)
    (h : WheelBatch.Handles (s.tab.wheel, s.stage) (f (s.tab.wheel, s.stage))) :
    Accounts b s (performWheel f s) := by
  have wheels : ∀ c ∈ (f (s.tab.wheel, s.stage)).trace, c.pointer? = none := fun c hc => by
    obtain ⟨e, rfl⟩ := h.wheel c hc
    rfl
  exact accounts_of_handles hm h.stage wheels (callsOf_map_call _ _) rfl rfl rfl

theorem accounts_wheelEvent (hm : s.tab.moves = some b) (hl : s.tab.state.isLive = true)
    (e : WheelEvent) (nextIsWheel : Bool) :
    Accounts b.flush s (wheelEvent e nextIsWheel s) :=
  (accounts_flushInput hm hl).andThen (feeds_flushInput s).id fun _ hq =>
    accounts_performWheel hq (handles_wheelEvent _ e nextIsWheel _)

theorem accounts_send {r : Reply} (hr : r ≠ .channelClose) (hm : s.tab.moves = some b) :
    Accounts b s (send r s) := by
  rcases send_cases hr s with h | ⟨l, -, -, -, h⟩ <;> rw [h]
  · exact .ok hm
  · exact ⟨fun _ => rfl, fun _ => ⟨b.queue, hm, (List.append_nil _).symm⟩⟩

theorem accounts_dispatchKey (hm : s.tab.moves = some b) (e : KeyEvent) :
    Accounts b s (dispatchKey e s) := by
  unfold dispatchKey
  refine (accounts_perform hm (Stage.handles_key e s.stage) fun c hc => ?_).andThen rfl
    fun queue hq => ?_
  · rw [Stage.key, Stage.trace_perform, List.mem_singleton] at hc
    rw [hc]
    rfl
  · unfold replyKey
    split
    · exact .of_setKeys (accounts_send (by simp) hq)
    · exact .of_setKeys (.ok hq)

theorem accounts_unlessSuppressed (hm : s.tab.moves = some b) (e : KeyEvent) :
    Accounts b s (unlessSuppressed e s) := by
  unfold unlessSuppressed
  split
  · exact .ok hm
  · exact accounts_dispatchKey hm e

theorem accounts_keyEvent (hm : s.tab.moves = some b) (hl : s.tab.state.isLive = true)
    (e : KeyEvent) : Accounts b.flush s (keyEvent e s) := by
  refine (accounts_flushInput hm hl).andThen (feeds_flushInput s).id fun queue hq => ?_
  dsimp only
  split
  · split
    · exact .of_setKeys (.ok hq)
    · refine .of_setKeys (accounts_unlessSuppressed ?_ e)
      exact hq
  · exact accounts_unlessSuppressed hq e

/-! ## All that is done to a tab -/

/-- A tab that only notifies content of changes leaves pointer input as it is. -/
theorem Notifies.accounts (h : Notifies s o) (hm : s.tab.moves = some b) : Accounts b s o := by
  have notices : ∀ c ∈ callsOf s.tab.id o.trace, ∃ n, c = .notice n := fun c hc => by
    obtain ⟨n, -, rfl⟩ := h.calls hc
    exact ⟨n, rfl⟩
  refine ⟨fun _ => h.content, fun _ => ⟨b.queue, h.moves.trans hm, ?_⟩⟩
  rw [Content.pushed_of_notices notices, List.append_nil, handed_of_forall, List.nil_append]
  intro c hc
  obtain ⟨n, rfl⟩ := notices c hc
  rfl

/-- What a live tab does in an act that does not tear it down, by what the act is to a
batch of moves, and what content pushes in it. -/
inductive Handling (s : Seat σ) (o : Outcome Effect (Seat σ)) :
    Arrival → List PointerEvent → Prop
  | move {m : PointerMove} (batch : s.tab.settings.batchMoves = true)
      (h : o = pointerMove m s) : Handling s o (.keep m) []
  | behind {e : PointerEvent} (h : o = pointerEvent e s) : Handling s o (.behind e) []
  | flush (h : o = flushInput s) : Handling s o .flush []
  | wheel {e : WheelEvent} {nextIsWheel : Bool} (h : o = wheelEvent e nextIsWheel s) :
      Handling s o .flush []
  | key {e : KeyEvent} (h : o = keyEvent e s) : Handling s o .flush []
  | notifies (h : Notifies s o) : Handling s o .other []
  | hangUp (h : o = hangUp s) : Handling s o .other []
  | push {e : PointerEvent} (h : o = .ok { s with tab := s.tab.push e }) : Handling s o .other [e]

theorem handling_request (build : Build) {e : Envelope} (hl : s.tab.state.isLive = true)
    (ha : (Act.request e).tearsDown = false) :
    Handling s (act build (.request e) s) (e.request.arrival s.tab.settings.batchMoves) [] := by
  obtain ⟨tab, channel, priority, request⟩ := e
  simp only [act, handle, hl, if_true, handleLive]
  cases request with
  | destroy => simp [Act.tearsDown, Act.asksDestroy] at ha
  | channelClosed => simp [Act.tearsDown, Act.losesLink] at ha
  | setRenderState enabled force epoch =>
    exact .notifies (notifies_requestRender enabled force epoch s)
  | paintWhileInterrupting epoch force =>
    exact .notifies (notifies_paintWhileInterrupting epoch force s)
  | setActive active => exact .notifies (notifies_setActive active s)
  | initRendering surface => exact .notifies (notifies_initRendering surface s)
  | pointerMove m =>
    simp only [Request.arrival]
    split
    · next hb => exact .move hb rfl
    · next hb => exact .behind (if_neg hb)
  | synthPointerMove m => exact .behind rfl
  | button b => exact .behind rfl
  | wheel w => exact .wheel rfl
  | key k => exact .key rfl

theorem handling_act (build : Build) {a : Act} (hl : s.tab.state.isLive = true)
    (ha : a.tearsDown = false) :
    Handling s (act build a s) (a.arrival s.tab.settings.batchMoves) a.pushes := by
  cases a with
  | request e => exact handling_request build hl ha
  | flush => exact .flush rfl
  | addBlocker => exact .notifies (notifies_addBlocker build s)
  | removeBlocker => exact .notifies (notifies_removeBlocker build s)
  | destroy => simp [Act.tearsDown, Act.asksDestroy] at ha
  | pass d =>
    rw [act, runDelete_of_live d hl]
    exact .notifies (.ok s)
  | push e => exact .push rfl
  | hangUp => exact .hangUp rfl
  | drop => simp [Act.tearsDown] at ha

/-- What an arrival and some pushed events make of a batch of moves, before anything is
dispatched. -/
def taking (arrival : Arrival) (pushes : List PointerEvent) (b : MoveBatch) : MoveBatch :=
  { b.next arrival with queue := (b.next arrival).queue ++ pushes }

theorem taking_nil (arrival : Arrival) (b : MoveBatch) : taking arrival [] b = b.next arrival := by
  rw [taking, List.append_nil]

theorem Handling.accounts {arrival : Arrival} {pushes : List PointerEvent}
    (h : Handling s o arrival pushes) (hm : s.tab.moves = some b)
    (hl : s.tab.state.isLive = true) : Accounts (taking arrival pushes b) s o := by
  cases h with
  | move batch h =>
    rw [h, taking_nil]
    exact accounts_pointerMove hm batch _
  | behind h =>
    rw [h, taking_nil]
    exact accounts_pointerEvent hm _
  | flush h =>
    rw [h, taking_nil]
    exact accounts_flushInput hm hl
  | wheel h =>
    rw [h, taking_nil]
    exact accounts_wheelEvent hm hl _ _
  | key h =>
    rw [h, taking_nil]
    exact accounts_keyEvent hm hl _
  | notifies h =>
    rw [taking_nil]
    exact h.accounts hm
  | hangUp h =>
    rw [h, taking_nil, Seat.hangUp]
    split
    · exact ⟨fun _ => rfl, fun _ => ⟨b.queue, hm, (List.append_nil _).symm⟩⟩
    · exact .ok hm
  | push h =>
    rw [h]
    refine ⟨fun _ => rfl, fun _ => ⟨b.queue ++ [_], ?_, (List.append_nil _).symm⟩⟩
    simp [Outcome.ok, Tab.push, hm, MoveBatch.enqueue, taking, MoveBatch.next]

/-- A live tab accounts for all its pointer input, whatever is done to it short of tearing
it down. -/
theorem accounts_act (build : Build) {a : Act} (hm : s.tab.moves = some b)
    (hl : s.tab.state.isLive = true) (ha : a.tearsDown = false) :
    Accounts (taking (a.arrival s.tab.settings.batchMoves) a.pushes b) s (act build a s) :=
  (handling_act build hl ha).accounts hm hl

/-- A live tab stays live, and under the same settings. -/
theorem keeps_act (build : Build) {a : Act} (hl : s.tab.state.isLive = true)
    (ha : a.tearsDown = false) :
    (act build a s).state.tab.id = s.tab.id ∧
      (act build a s).state.tab.settings = s.tab.settings ∧
      (act build a s).state.tab.state = s.tab.state := by
  cases hh : a.isHangUp with
  | false =>
    have h := works_act build hl ha hh
    exact ⟨h.id, congrArg Standing.settings h.standing, h.state⟩
  | true =>
    cases a with
    | hangUp =>
      simp only [act, hangUp]
      split <;> exact ⟨rfl, rfl, rfl⟩
    | _ => cases hh

end Seat

end TabHost
