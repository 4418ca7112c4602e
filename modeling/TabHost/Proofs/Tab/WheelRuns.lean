import TabHost.Proofs.Tab.Overtaking
import TabHost.Proofs.Tab.Wheel

/-!
# The wheel events of a tab in runs

Content of a tab is handed wheel events only while the tab takes one in (`Seat.wheelCalls_act`).
So in whatever turns a tab takes while it is live, the wheel events that it takes in are divided
into runs, in their order, and content is handed the total of each, but for the last one, which
may be held back (`Tab.divides_turns`).
-/

set_option linter.unusedSectionVars false

namespace TabHost

/-- Whether content is handed a wheel event. -/
def Call.isWheel : Call → Bool
  | .wheel _ => true
  | _ => false

/-- The wheel events that content of a tab is handed. -/
def wheelCalls (tab : TabId) (trace : List Effect) : List Call :=
  (callsOf tab trace).filter Call.isWheel

/-- The wheel event that comes in with an act. -/
def Act.wheel? : Act → Option WheelEvent
  | .request { request := .wheel w, .. } => some w
  | _ => none

theorem Act.wheel?_of_isWheel_eq_false {a : Act} (h : a.isWheel = false) : a.wheel? = none := by
  cases a with
  | request e =>
    obtain ⟨tab, channel, priority, request⟩ := e
    cases request with
    | wheel w => cases h
    | _ => rfl
  | _ => rfl

theorem wheelCalls_append (tab : TabId) (a b : List Effect) :
    wheelCalls tab (a ++ b) = wheelCalls tab a ++ wheelCalls tab b := by
  rw [wheelCalls, callsOf_append, List.filter_append]
  rfl

theorem wheelCalls_of_pointer {tab : TabId} {trace : List Effect}
    (h : ∀ c ∈ callsOf tab trace, c.pointer? ≠ none) : wheelCalls tab trace = [] := by
  refine List.filter_eq_nil_iff.mpr fun c hc => ?_
  have := h c hc
  cases c with
  | wheel w => exact absurd rfl this
  | _ => simp [Call.isWheel]

variable {σ : Type} [Content σ]

namespace Seat

variable {s : Seat σ} {o : Outcome Effect (Seat σ)} {tab : TabId}

/-! ## What is no wheel event -/

theorem Notifies.wheelCalls (h : Notifies s o) : wheelCalls tab o.trace = [] := by
  refine List.filter_eq_nil_iff.mpr fun c hc => ?_
  obtain ⟨n, -, rfl⟩ := h.calls hc
  simp [Call.isWheel]

theorem wheelCalls_andThen {f : Operation σ} (h : TabHost.wheelCalls tab o.trace = [])
    (hf : ∀ s, TabHost.wheelCalls tab (f s).trace = []) :
    TabHost.wheelCalls tab (o.andThen f).trace = [] := by
  cases ho : o.fault with
  | some e =>
    rw [Outcome.andThen_of_fault ho]
    exact h
  | none =>
    rw [Outcome.trace_andThen ho, wheelCalls_append, h, hf, List.append_nil]

theorem wheelCalls_unlessSuppressed (e : KeyEvent) (s : Seat σ) :
    TabHost.wheelCalls tab (unlessSuppressed e s).trace = [] := by
  unfold unlessSuppressed
  split
  · rfl
  · refine wheelCalls_andThen (List.filter_eq_nil_iff.mpr fun c hc => ?_) fun s => ?_
    · have key : tab = s.tab.id ∧ c = .key e (s.stage.keyStatus e) := by
        simpa [perform, Stage.key] using mem_callsOf.mp hc
      simp [key.2, Call.isWheel]
    · rw [TabHost.wheelCalls, calls_replyKey]
      rfl

theorem wheelCalls_keyEvent (e : KeyEvent) (s : Seat σ) :
    TabHost.wheelCalls tab (keyEvent e s).trace = [] := by
  refine wheelCalls_andThen (wheelCalls_of_pointer fun c => pointer_of_mem_flushInput) fun s => ?_
  split
  · dsimp only
    split
    · rfl
    · exact wheelCalls_unlessSuppressed e _
  · exact wheelCalls_unlessSuppressed e s

theorem wheelCalls_request (build : Build) {e : Envelope} (hl : s.tab.state.isLive = true)
    (ha : (Act.request e).tearsDown = false) (hw : e.request.isWheel = false) :
    TabHost.wheelCalls tab (act build (.request e) s).trace = [] := by
  obtain ⟨tab, channel, priority, request⟩ := e
  simp only [act, handle, hl, if_true, handleLive]
  cases request with
  | destroy => simp [Act.tearsDown, Act.asksDestroy] at ha
  | channelClosed => simp [Act.tearsDown, Act.losesLink] at ha
  | setRenderState enabled force epoch =>
    exact (notifies_requestRender enabled force epoch s).wheelCalls
  | paintWhileInterrupting epoch force =>
    exact (notifies_paintWhileInterrupting epoch force s).wheelCalls
  | setActive active => exact (notifies_setActive active s).wheelCalls
  | initRendering surface => exact (notifies_initRendering surface s).wheelCalls
  | pointerMove m => exact wheelCalls_of_pointer fun c => pointer_of_mem_pointerMove
  | synthPointerMove m => exact wheelCalls_of_pointer fun c => pointer_of_mem_pointerEvent
  | button b => exact wheelCalls_of_pointer fun c => pointer_of_mem_pointerEvent
  | key k => exact wheelCalls_keyEvent k s
  | wheel w => cases hw

/-- Content is handed no wheel event while something else is done to a tab. -/
theorem wheelCalls_act (build : Build) {a : Act} (hs : s.tab.Sound) (hw : a.isWheel = false) :
    TabHost.wheelCalls tab (act build a s).trace = [] := by
  cases does_act build a hs with
  | works live ha _ =>
    cases a with
    | request e => exact wheelCalls_request build live ha hw
    | flush => exact wheelCalls_of_pointer fun c => pointer_of_mem_flushInput
    | addBlocker => exact (notifies_addBlocker build s).wheelCalls
    | removeBlocker => exact (notifies_removeBlocker build s).wheelCalls
    | destroy => simp [Act.tearsDown, Act.asksDestroy] at ha
    | pass d =>
      rw [act, runDelete_of_live d live]
      rfl
    | push e => rfl
    | hangUp =>
      rw [act, hangUp]
      split <;> rfl
    | drop => simp [Act.tearsDown] at ha
  | hungUp _ _ _ heq =>
    rw [heq]
    rfl
  | tornDown _ _ ht =>
    rw [ht.trace]
    refine List.filter_eq_nil_iff.mpr fun c hc => ?_
    cases List.mem_singleton.mp (mem_callsOf.mp hc)
    simp [Call.isWheel]
  | rests live hr =>
    rw [TabHost.wheelCalls, (hr.idles live).callsOf]
    rfl

/-! ## A wheel event -/

section Runs

variable {events : List WheelEvent} {told : List Call} {runs : List WheelRun}
  {held : Option WheelRun}

/-- What a tab does with a wheel event is what its batch does. -/
theorem wheelCalls_performWheel
    {f : WheelBatch × Stage σ → Outcome Call (WheelBatch × Stage σ)} (s : Seat σ)
    (hf : WheelBatch.Handles (s.tab.wheel, s.stage) (f (s.tab.wheel, s.stage))) :
    TabHost.wheelCalls s.tab.id (performWheel f s).trace = (f (s.tab.wheel, s.stage)).trace := by
  have calls : callsOf s.tab.id (performWheel f s).trace = (f (s.tab.wheel, s.stage)).trace :=
    callsOf_map_call _ _
  rw [TabHost.wheelCalls, calls]
  refine List.filter_eq_self.mpr fun c hc => ?_
  obtain ⟨w, rfl⟩ := hf.wheel c hc
  rfl

theorem divides_wheelEvent (h : WheelBatch.Divides events told s.tab.wheel runs held)
    {e : WheelEvent} {nextIsWheel : Bool} (hf : (wheelEvent e nextIsWheel s).fault = none) :
    ∃ runs held, WheelBatch.Divides (events ++ [e])
      (told ++ TabHost.wheelCalls s.tab.id (wheelEvent e nextIsWheel s).trace)
      (wheelEvent e nextIsWheel s).state.tab.wheel runs held := by
  unfold wheelEvent at hf ⊢
  obtain ⟨flushed, handled⟩ := Outcome.fault_andThen_eq_none_iff.mp hf
  have quiet : TabHost.wheelCalls s.tab.id (flushInput s).trace = [] :=
    wheelCalls_of_pointer fun c => pointer_of_mem_flushInput
  rw [Outcome.trace_andThen flushed, Outcome.state_andThen flushed, wheelCalls_append, quiet,
    List.nil_append, ← (feeds_flushInput s).id]
  rw [← wheel_flushInput s] at h
  generalize (flushInput s).state = u at *
  rw [wheelCalls_performWheel u (handles_wheelEvent _ e nextIsWheel _)]
  cases hb : s.tab.settings.batchWheel with
  | true =>
    rw [hb] at handled
    have answered : WheelBatch.Answered u.tab.wheel (.handle e nextIsWheel u.stage)
        (u.tab.wheel.answer (.handle e nextIsWheel u.stage)) := WheelBatch.answered handled
    obtain ⟨runs', held', divides, -⟩ := h.answer answered
    exact ⟨runs', held', divides⟩
  | false =>
    rw [hb] at handled
    have trace : ((WheelBatch.dispatchPending (u.tab.wheel, u.stage)).andThen
        (WheelBatch.dispatch e)).trace = u.tab.wheel.pendingCalls ++ [.wheel e] :=
      WheelBatch.answered_dispatch rfl handled
    have batch := WheelBatch.batch_dispatch_pending e (u.tab.wheel, u.stage)
    have pending : (performWheel (fun r => (WheelBatch.dispatchPending r).andThen
        (WheelBatch.dispatch e)) u).state.tab.wheel.pending = none :=
      congrArg WheelBatch.pending batch
    have divides := h.dispatch [.single e] pending
    rw [List.map_singleton, WheelRun.total_single, ← trace] at divides
    exact ⟨_, none, divides⟩

/-- Whatever is done to a live tab short of tearing it down, the wheel events that it takes in
stay divided into runs. -/
theorem divides_act (build : Build) {a : Act} (hs : s.tab.Sound)
    (hl : s.tab.state.isLive = true) (ha : a.tearsDown = false)
    (h : WheelBatch.Divides events told s.tab.wheel runs held)
    (hf : (act build a s).fault = none) :
    ∃ runs held, WheelBatch.Divides (events ++ a.wheel?.toList)
      (told ++ TabHost.wheelCalls s.tab.id (act build a s).trace)
      (act build a s).state.tab.wheel runs held := by
  cases hw : a.isWheel with
  | false =>
    rw [wheelCalls_act build hs hw, wheel_act build hl ha hw, Act.wheel?_of_isWheel_eq_false hw,
      List.append_nil, Option.toList_none, List.append_nil]
    exact ⟨runs, held, h⟩
  | true =>
    obtain ⟨⟨tab, channel, priority, request⟩, w, rfl, rfl⟩ := Act.exists_of_isWheel hw
    rw [act_wheel build hl rfl] at hf ⊢
    exact divides_wheelEvent h hf

end Runs

end Seat

/-! ## In the long run -/

namespace Tab

/-- If a tab is live after some turns, it was live all the time, and none of them tore it
down. -/
theorem spared_of_live (build : Build) {t : Tab σ} {xs : List Turn} (hs : t.Sound)
    (hd : ∀ x ∈ xs, x.act ≠ .drop) (hf : (t.turns build xs).fault = none)
    (hl : (t.turns build xs).state.state.isLive = true) :
    t.state.isLive = true ∧ ∀ x ∈ xs, x.act.tearsDown = false := by
  induction xs generalizing t with
  | nil => exact ⟨hl, by simp⟩
  | cons x rest ih =>
    obtain ⟨first, later⟩ := Outcome.fault_andThen_eq_none_iff.mp hf
    have notDrop := hd x List.mem_cons_self
    rw [turns, Outcome.state_andThen first] at hl
    obtain ⟨live, spared⟩ := ih (Seat.sound_act build (s := t.seat x) hs notDrop)
      (fun y hy => hd y (List.mem_cons_of_mem _ hy)) later hl
    have live : (Seat.act build x.act (t.seat x)).state.tab.state.isLive = true := live
    have both : t.state.isLive = true ∧ x.act.tearsDown = false := by
      cases Seat.does_act build x.act (s := t.seat x) hs with
      | works hlive ha _ => exact ⟨hlive, ha⟩
      | hungUp hlive ha _ _ => exact ⟨hlive, by rw [ha]; rfl⟩
      | tornDown hlive ha ht =>
        rw [ht.tab] at live
        exact absurd ((Act.isLive_stageAfter ha notDrop t.state).symm.trans live) (by simp)
      | rests hdead hr => exact absurd ((hr.idles hdead).state.symm.trans live) (by simp)
    refine ⟨both.1, fun y hy => ?_⟩
    rcases List.mem_cons.mp hy with rfl | hy
    · exact both.2
    · exact spared y hy

/-- Whatever turns a live tab takes short of being torn down, the wheel events that it takes in
are divided into runs. -/
theorem divides_turns (build : Build) {t : Tab σ} {xs : List Turn} (hs : t.Sound)
    (hl : t.state.isLive = true) (hp : t.wheel.pending = none)
    (hx : ∀ x ∈ xs, x.act.tearsDown = false) (hf : (t.turns build xs).fault = none) :
    ∃ runs held, WheelBatch.Divides (xs.filterMap fun x => x.act.wheel?)
      (wheelCalls t.id (t.turns build xs).trace) (t.turns build xs).state.wheel runs held := by
  have all : (t.turns build xs).state.Sound ∧ (t.turns build xs).state.id = t.id ∧
      (t.turns build xs).state.state.isLive = true ∧
      ∃ runs held, WheelBatch.Divides (xs.filterMap fun x => x.act.wheel?)
        (wheelCalls t.id (t.turns build xs).trace) (t.turns build xs).state.wheel runs held := by
    induction xs using List.reverseRecOn with
    | nil => exact ⟨hs, rfl, hl, [], none, .nil hp⟩
    | append_singleton xs x ih =>
      have hxs := fault_of_append hf
      obtain ⟨sound, id, live, runs, held, divides⟩ :=
        ih (fun y hy => hx y (List.mem_append_left _ hy)) hxs
      have hx := hx x (by simp)
      have one : [x].filterMap (fun x => x.act.wheel?) = x.act.wheel?.toList := by
        cases hw : x.act.wheel? <;> simp [hw]
      rw [turns_append, Outcome.fault_andThen hxs, turns_singleton] at hf
      rw [turns_append, Outcome.state_andThen hxs, Outcome.trace_andThen hxs, turns_singleton,
        wheelCalls_append, List.filterMap_append, one]
      generalize (t.turns build xs).state = u at *
      obtain ⟨id', -, state'⟩ := Seat.keeps_act (s := u.seat x) build live hx
      refine ⟨Seat.sound_act build (s := u.seat x) sound ?_, id'.trans id,
        (congrArg Lifecycle.isLive state').trans live, ?_⟩
      · rintro hd
        rw [hd] at hx
        cases hx
      · rw [← id]
        exact Seat.divides_act build (s := u.seat x) sound live hx (id ▸ divides) hf
  exact all.2.2.2

end Tab

end TabHost
