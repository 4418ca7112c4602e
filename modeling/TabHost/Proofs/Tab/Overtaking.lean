import TabHost.Content.Headless
import TabHost.Proofs.Batch.Dispatch
import TabHost.Proofs.Tab.Balance

/-!
# Nothing overtakes pointer input

Before a live tab hands content a wheel or key event, it hands it all pointer input that
waits, what is queued before what is kept back, and all that content pushes meanwhile
(`Seat.caughtUp_act`). An event that is not kept back itself goes behind what waits, and
nothing waits any more once it was handled. What is kept back stands in the order in which
its records were started, and what does not wait was handed to content before, or is
superseded (`Tab.nothing_overtakes`).
-/

set_option linter.unusedSectionVars false

namespace TabHost

/-- With some calls, content was handed all pointer input that waited in a batch, and what
it pushed meanwhile; if it was handed anything else, then wheel events. -/
def CaughtUp {σ : Type} [Content σ] (b : MoveBatch) (content : σ) (calls : List Call) : Prop :=
  ∃ drained wheels, calls = drained.map .pointer ++ wheels ∧ (∀ c ∈ wheels, ∃ w, c = .wheel w) ∧
    drained = b.queue ++ b.held ++ Content.pushed content (drained.map .pointer)

/-- What stands behind an element that is not in the first of two lists is in the second. -/
theorem split_of_not_mem {α : Type} {xs ys before after : List α} {c : α}
    (h : xs ++ ys = before ++ c :: after) (hc : c ∉ xs) :
    ∃ front, before = xs ++ front ∧ ys = front ++ c :: after := by
  rcases List.append_eq_append_iff.mp h with ⟨front, hb, hy⟩ | ⟨front, hx, hy⟩
  · exact ⟨front, hb, hy⟩
  · cases front with
    | nil => exact ⟨[], by simpa using hx.symm, by simpa using hy.symm⟩
    | cons d rest =>
      obtain ⟨rfl, -⟩ := List.cons.inj hy
      exact absurd (by simp [hx]) hc

namespace Seat

variable {σ : Type} [Content σ] {s : Seat σ} {b : MoveBatch}
  {tab : TabId} {c : Call}

/-! ## What is flushed -/

theorem pointer_of_mem_drain (h : c ∈ callsOf tab (drain s).trace) : c.pointer? ≠ none := by
  obtain ⟨c', hc', heq⟩ := List.mem_map.mp (mem_callsOf.mp h)
  obtain ⟨e, -, rfl⟩ := List.mem_map.mp (s.stage.prefix_drain.subset hc')
  cases heq
  simp [Call.pointer?]

theorem pointer_of_mem_pointerEvent {e : PointerEvent}
    (h : c ∈ callsOf tab (pointerEvent e s).trace) : c.pointer? ≠ none := by
  unfold pointerEvent at h
  split at h
  · cases h
  · exact pointer_of_mem_drain h

theorem pointer_of_mem_pointerMove {m : PointerMove}
    (h : c ∈ callsOf tab (pointerMove m s).trace) : c.pointer? ≠ none := by
  unfold pointerMove at h
  split at h
  · split at h
    · cases h
    · dsimp only at h
      split at h
      · exact pointer_of_mem_drain h
      · cases h
  · exact pointer_of_mem_pointerEvent h

theorem pointer_of_mem_flushInput (h : c ∈ callsOf tab (flushInput s).trace) :
    c.pointer? ≠ none := by
  unfold flushInput at h
  split at h
  · split at h
    · cases h
    · split at h
      · cases h
      · exact pointer_of_mem_drain h
  · cases h

/-- A flush hands content all that waits, and what content pushes meanwhile. -/
theorem calls_flushInput (h : s.tab.moves = some b) (hl : s.tab.state.isLive = true)
    (hf : (flushInput s).fault = none) : CaughtUp b s.tab.content
      (callsOf s.tab.id (flushInput s).trace) := by
  rcases flushInput_cases h hl with ⟨hi, heq⟩ | heq
  · rw [heq, eq_empty_of_isIdle hi]
    exact ⟨[], [], rfl, by simp, rfl⟩
  · rw [heq] at hf ⊢
    have moves := moves_onMoves h MoveBatch.flush
    generalize hs : s.onMoves MoveBatch.flush = s' at *
    have id : s.tab.id = s'.tab.id := by rw [← hs]; rfl
    have content : s.tab.content = s'.tab.content := by rw [← hs]; rfl
    have told := s'.stage.trace_drain hf
    rw [id, content, drain, callsOf_perform]
    refine ⟨_, [], by rw [List.append_nil]; exact told, by simp, ?_⟩
    rw [← told, queue_stage moves]
    rfl

/-- What follows a flush finds content caught up, if it hands content wheel events, or one
other event. -/
theorem caughtUp_of_flush {f : Operation σ} (h : s.tab.moves = some b)
    (hl : s.tab.state.isLive = true)
    (hw : ∀ front c after, callsOf s.tab.id (f (flushInput s).state).trace =
      front ++ c :: after → ∀ d ∈ front, ∃ w, d = .wheel w) {before after : List Call}
    (heq : callsOf s.tab.id ((flushInput s).andThen f).trace = before ++ c :: after)
    (hc : c.pointer? = none) : CaughtUp b s.tab.content before := by
  cases hf : (flushInput s).fault with
  | some e =>
    rw [Outcome.andThen_of_fault hf] at heq
    exact absurd hc (pointer_of_mem_flushInput (by rw [heq]; simp))
  | none =>
    rw [Outcome.trace_andThen hf, callsOf_append] at heq
    obtain ⟨front, rfl, hfront⟩ :=
      split_of_not_mem heq fun hm => pointer_of_mem_flushInput hm hc
    obtain ⟨drained, wheels, hcalls, hwheels, hdrained⟩ := calls_flushInput h hl hf
    refine ⟨drained, wheels ++ front, by rw [hcalls, List.append_assoc], fun d hd => ?_, hdrained⟩
    rcases List.mem_append.mp hd with hd | hd
    · exact hwheels d hd
    · exact hw front c after hfront d hd

/-! ## Wheel and keys -/

theorem wheel_of_mem_performWheel
    {f : WheelBatch × Stage σ → Outcome Call (WheelBatch × Stage σ)}
    (hf : WheelBatch.Handles (s.tab.wheel, s.stage) (f (s.tab.wheel, s.stage)))
    (h : c ∈ callsOf tab (performWheel f s).trace) : ∃ w, c = .wheel w := by
  obtain ⟨c', hc', heq⟩ := List.mem_map.mp (mem_callsOf.mp h)
  cases heq
  exact hf.wheel c hc'

theorem calls_replyKey (tab : TabId) (e : KeyEvent) (status : EventStatus) (s : Seat σ) :
    callsOf tab (replyKey e status s).trace = [] := by
  unfold replyKey
  split
  · exact calls_send (by simp) tab s
  · rfl

/-- Content is handed one key event at most. -/
theorem length_calls_unlessSuppressed (tab : TabId) (e : KeyEvent) (s : Seat σ) :
    (callsOf tab (unlessSuppressed e s).trace).length ≤ 1 := by
  unfold unlessSuppressed
  split
  · exact Nat.zero_le 1
  · have one : (callsOf tab (perform (Stage.key e) s).trace).length ≤ 1 := by
      refine Nat.le_trans (List.length_filterMap_le _ _) (Nat.le_of_eq ?_)
      simp [perform, Stage.key]
    unfold dispatchKey
    cases hf : (perform (Stage.key e) s).fault with
    | some f =>
      rw [Outcome.andThen_of_fault hf]
      exact one
    | none =>
      rw [Outcome.trace_andThen hf, callsOf_append, calls_replyKey, List.append_nil]
      exact one

theorem caughtUp_wheelEvent {e : WheelEvent} {nextIsWheel : Bool} (hm : s.tab.moves = some b)
    (hl : s.tab.state.isLive = true) {before after : List Call}
    (heq : callsOf s.tab.id (wheelEvent e nextIsWheel s).trace = before ++ c :: after)
    (hc : c.pointer? = none) : CaughtUp b s.tab.content before := by
  refine caughtUp_of_flush hm hl (fun front c after hw d hd => ?_) heq hc
  have mem : d ∈ front ++ c :: after := List.mem_append_left _ hd
  rw [← hw] at mem
  exact wheel_of_mem_performWheel (handles_wheelEvent _ e nextIsWheel _) mem

theorem caughtUp_keyEvent {e : KeyEvent} (hm : s.tab.moves = some b)
    (hl : s.tab.state.isLive = true) {before after : List Call}
    (heq : callsOf s.tab.id (keyEvent e s).trace = before ++ c :: after)
    (hc : c.pointer? = none) : CaughtUp b s.tab.content before := by
  refine caughtUp_of_flush hm hl (fun front c after hw d hd => ?_) heq hc
  have one : front.length + (after.length + 1) ≤ 1 := by
    have := congrArg List.length hw
    rw [List.length_append, List.length_cons] at this
    rw [← this]
    split
    · dsimp only
      split
      · exact Nat.zero_le 1
      · exact length_calls_unlessSuppressed _ e _
    · exact length_calls_unlessSuppressed _ e _
  have empty : front = [] := List.eq_nil_of_length_eq_zero (by omega)
  rw [empty] at hd
  cases hd

/-! ## All that is done to a tab -/

theorem Handling.caughtUp {o : Outcome Effect (Seat σ)} {arrival : Arrival}
    {pushes : List PointerEvent} (h : Handling s o arrival pushes) (hm : s.tab.moves = some b)
    (hl : s.tab.state.isLive = true) {before after : List Call}
    (heq : callsOf s.tab.id o.trace = before ++ c :: after) (hi : c.isInput = true)
    (hc : c.pointer? = none) : CaughtUp b s.tab.content before := by
  have mem : c ∈ callsOf s.tab.id o.trace := by rw [heq]; simp
  cases h with
  | move batch h => exact absurd hc (pointer_of_mem_pointerMove (h ▸ mem))
  | behind h => exact absurd hc (pointer_of_mem_pointerEvent (h ▸ mem))
  | flush h => exact absurd hc (pointer_of_mem_flushInput (h ▸ mem))
  | wheel h => exact caughtUp_wheelEvent hm hl (h ▸ heq) hc
  | key h => exact caughtUp_keyEvent hm hl (h ▸ heq) hc
  | notifies h =>
    obtain ⟨n, -, rfl⟩ := h.calls mem
    cases hi
  | hangUp h =>
    rw [h, Seat.hangUp] at mem
    split at mem <;> cases mem
  | push h =>
    rw [h] at mem
    cases mem

/-- Whatever is done to a live tab short of tearing it down, content has caught up with all
pointer input that waited before it is handed a wheel or key event. -/
theorem caughtUp_act (build : Build) {a : Act} (hm : s.tab.moves = some b)
    (hl : s.tab.state.isLive = true) (ha : a.tearsDown = false) {before after : List Call}
    (heq : callsOf s.tab.id (act build a s).trace = before ++ c :: after)
    (hi : c.isInput = true) (hc : c.pointer? = none) : CaughtUp b s.tab.content before :=
  (handling_act build hl ha).caughtUp hm hl heq hi hc

/-! ## Events that are not kept back -/

theorem act_of_behind (build : Build) {a : Act} {e : PointerEvent}
    (hl : s.tab.state.isLive = true) (ha : a.tearsDown = false)
    (h : a.arrival s.tab.settings.batchMoves = .behind e) :
    act build a s = pointerEvent e s := by
  have handling := handling_act build hl ha
  rw [h] at handling
  generalize a.pushes = pushes at handling
  cases handling with
  | behind h => exact h

/-- The stage on which a tab hands content an event that is not kept back. -/
theorem stage_pointerEvent (hm : s.tab.moves = some b) (e : PointerEvent) : ∃ stage : Stage σ,
    stage.content = s.tab.content ∧ stage.queue = b.queue ++ b.held ++ [e] ∧
      callsOf s.tab.id (pointerEvent e s).trace = stage.drain.trace ∧
      (pointerEvent e s).fault = stage.drain.fault := by
  refine ⟨(s.onMoves fun b => b.flush.enqueue e).stage, rfl, ?_, ?_, ?_⟩
  · exact queue_stage (moves_onMoves hm fun b => b.flush.enqueue e)
  · rw [pointerEvent_eq_drain hm]
    exact callsOf_perform Stage.drain (s.onMoves fun b => b.flush.enqueue e)
  · rw [pointerEvent_eq_drain hm]
    rfl

/-- An event that is not kept back goes behind all that waits, and before what content
pushes meanwhile, as far as there is no fault. -/
theorem prefix_calls_pointerEvent (hm : s.tab.moves = some b) (e : PointerEvent) :
    callsOf s.tab.id (pointerEvent e s).trace <+: (b.queue ++ b.held ++ e :: Content.pushed
      s.tab.content (callsOf s.tab.id (pointerEvent e s).trace)).map .pointer := by
  obtain ⟨stage, content, queue, calls, -⟩ := stage_pointerEvent hm e
  have told := stage.prefix_drain
  rw [content, queue, ← calls, List.append_assoc _ [e]] at told
  exact told

theorem calls_pointerEvent (hm : s.tab.moves = some b) {e : PointerEvent}
    (hf : (pointerEvent e s).fault = none) :
    callsOf s.tab.id (pointerEvent e s).trace = (b.queue ++ b.held ++ e :: Content.pushed
      s.tab.content (callsOf s.tab.id (pointerEvent e s).trace)).map .pointer := by
  obtain ⟨stage, content, queue, calls, fault⟩ := stage_pointerEvent hm e
  have told := stage.trace_drain (fault.symm.trans hf)
  rw [content, queue, ← calls, List.append_assoc _ [e]] at told
  exact told

end Seat

/-! ## In the long run -/

namespace Tab

variable {σ : Type} [Content σ]

/-- After some turns, content was handed all that was pushed and all that arrived, but for
the superseded moves, and for what is queued or kept back. -/
def Accounted (build : Build) (t : Tab σ) (xs : List Turn) (b : MoveBatch) : Prop :=
  ∃ arrived, Interleaves (t.pushedIn build xs) arrived
      (handed t.id (t.turns build xs).trace ++ b.queue) ∧
    ∀ p, KeptOf p (t.arrivals xs) ((arrived ++ b.held).filter (PointerEvent.isOf p))

/-- What is kept back is what a batch keeps back that dispatches nothing, so it is accounted
for as that is. -/
theorem accounted_of_pending {build : Build} {t : Tab σ} {xs : List Turn} {b : MoveBatch}
    (pending : b.pending = (({} : MoveBatch).after (t.arrivals xs)).pending)
    (queue : Interleaves (t.pushedIn build xs) (({} : MoveBatch).after (t.arrivals xs)).queue
      (handed t.id (t.turns build xs).trace ++ b.queue)) : Accounted build t xs b := by
  have held : b.held = (({} : MoveBatch).after (t.arrivals xs)).held := by
    rw [MoveBatch.held, pending]
    rfl
  refine ⟨_, queue, fun p => ?_⟩
  rw [held]
  exact MoveBatch.keptOf_after p _

/-- An event goes behind all pointer input that waits in a batch, and before what content
pushes meanwhile, and nothing waits then. -/
structure GoesBehind (b : MoveBatch) (e : PointerEvent) (u : Tab σ)
    (o : Outcome Effect (Tab σ)) : Prop where
  order : callsOf u.id o.trace <+:
    (b.queue ++ b.held ++ e :: Content.pushed u.content (callsOf u.id o.trace)).map .pointer
  all : o.fault = none → callsOf u.id o.trace =
    (b.queue ++ b.held ++ e :: Content.pushed u.content (callsOf u.id o.trace)).map .pointer
  idle : o.fault = none → o.state.moves = some {}

/-- Whatever was done to a live tab, all its pointer input is accounted for, and what is
kept back stands in the order in which it was started. What waits is handed to content
before the next wheel or key event, and before the next event that is not kept back. -/
theorem nothing_overtakes (build : Build) {t : Tab σ} {xs : List Turn}
    (live : t.state.isLive = true) (moves : t.moves = some {})
    (spared : ∀ x ∈ xs, x.act.tearsDown = false) (fault : (t.turns build xs).fault = none) :
    ∃ b, (t.turns build xs).state.moves = some b ∧ Accounted build t xs b ∧
      StartedInOrder (t.arrivals xs) b.pending ∧
      ∀ x : Turn, x.act.tearsDown = false →
        (∀ before c after,
          callsOf t.id ((t.turns build xs).state.turn build x).trace = before ++ c :: after →
          c.isInput = true → c.pointer? = none →
          CaughtUp b (t.turns build xs).state.content before) ∧
        ∀ e, x.act.arrival t.settings.batchMoves = .behind e →
          GoesBehind b e (t.turns build xs).state ((t.turns build xs).state.turn build x) := by
  obtain ⟨id, settings, ulive, -, b, hb, hpending, hqueue⟩ :=
    balanced_turns build live moves spared fault
  refine ⟨b, hb, accounted_of_pending hpending hqueue, ?_,
    fun x hx => ⟨fun before c after heq hi hc => ?_, fun e he => ?_⟩⟩
  · rw [hpending]
    exact MoveBatch.startedInOrder_after _
  · rw [← id] at heq
    exact Seat.caughtUp_act (s := (t.turns build xs).state.seat x) build hb ulive hx heq hi hc
  · rw [← settings] at he
    have acts := Seat.act_of_behind (s := (t.turns build xs).state.seat x) build ulive hx he
    rw [turn, acts]
    exact ⟨Seat.prefix_calls_pointerEvent (s := (t.turns build xs).state.seat x) hb e,
      fun hf => Seat.calls_pointerEvent (s := (t.turns build xs).state.seat x) hb hf,
      fun hf => Seat.moves_pointerEvent (s := (t.turns build xs).state.seat x) hb hf⟩

/-- A live tab whose content pushes an event while it handles its first one. -/
def reentrant : Tab Headless :=
  (create { value := 7 } {} { reentrant := [.move { pointer := ⟨3⟩, position := {} }] }).connected
    { tab := { value := 7 } }

/-- A turn in which a request is delivered. -/
def delivers (request : Request) : Turn :=
  { around := {}, act := .request { tab := { value := 7 }, request := request } }

/-- Two moves, the second of which starts a record of its own. -/
def moveApart : List Turn :=
  [delivers (.pointerMove { pointer := ⟨1⟩, position := {} }),
    delivers (.pointerMove { pointer := ⟨2⟩, position := {} })]

/-- A button of the first of their pointers. -/
def release : ButtonEvent := { pointer := ⟨1⟩, button := .back, action := .up, position := {} }

/-- The button goes behind both moves, and what content pushes goes behind the button. -/
theorem nothing_overtakes_reentrant :
    handed ⟨7⟩ ((reentrant.turns .checked moveApart).state.turn .checked
      (delivers (.button release))).trace =
      [.move { pointer := ⟨1⟩, position := {} }, .move { pointer := ⟨2⟩, position := {} },
        .button release, .move { pointer := ⟨3⟩, position := {} }] ∧
    ∃ b, (reentrant.turns .checked moveApart).state.moves = some b ∧
      Accounted .checked reentrant moveApart b ∧
      StartedInOrder (reentrant.arrivals moveApart) b.pending ∧
      GoesBehind b (.button release) (reentrant.turns .checked moveApart).state
        ((reentrant.turns .checked moveApart).state.turn .checked
          (delivers (.button release))) := by
  have spared : ∀ x ∈ moveApart, x.act.tearsDown = false := by decide
  obtain ⟨b, hb, accounted, ordered, next⟩ :=
    nothing_overtakes .checked (t := reentrant) rfl rfl spared rfl
  exact ⟨rfl, b, hb, accounted, ordered, (next (delivers (.button release)) rfl).2 _ rfl⟩

end Tab

end TabHost
