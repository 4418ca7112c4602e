import TabHost.Proofs.Batch.Wheel
import TabHost.Proofs.Tab.Teardown

/-!
# What a tab keeps of its wheel events

Only an event that is followed by another one may leave something of the wheel events of a tab,
and to be followed means that the first envelope which waits behind it, on its channel and at its
priority, is a wheel event for the same tab. All else that is done to a tab leaves the batch of
wheel events alone, or takes it away with the window (`Seat.wheelLeft_act`).
-/

set_option linter.unusedSectionVars false

namespace TabHost

variable {σ : Type} [Content σ]

/-- Whether an act delivers a wheel event. -/
def Act.isWheel : Act → Bool
  | .request e => e.request.isWheel
  | _ => false

theorem Act.exists_of_isWheel {a : Act} (h : a.isWheel = true) :
    ∃ e w, a = .request e ∧ e.request = .wheel w := by
  cases a with
  | request e =>
    obtain ⟨tab, channel, priority, request⟩ := e
    cases request with
    | wheel w => exact ⟨_, w, rfl, rfl⟩
    | _ => cases h
  | _ => cases h

namespace Seat

variable {s : Seat σ} {o : Outcome Effect (Seat σ)}

theorem wheel_send {r : Reply} (hr : r ≠ .channelClose) (s : Seat σ) :
    (send r s).state.tab.wheel = s.tab.wheel := by
  rcases send_cases hr s with h | ⟨l, -, -, -, h⟩
  · rw [h]
    rfl
  · rw [h]
    rfl

theorem wheel_pointerEvent (e : PointerEvent) (s : Seat σ) :
    (pointerEvent e s).state.tab.wheel = s.tab.wheel := by
  unfold pointerEvent
  split <;> rfl

theorem wheel_pointerMove (m : PointerMove) (s : Seat σ) :
    (pointerMove m s).state.tab.wheel = s.tab.wheel := by
  unfold pointerMove
  split
  · split
    · rfl
    · dsimp only
      split <;> rfl
  · exact wheel_pointerEvent _ s

theorem wheel_flushInput (s : Seat σ) : (flushInput s).state.tab.wheel = s.tab.wheel := by
  unfold flushInput
  split
  · split
    · rfl
    · split <;> rfl
  · rfl

theorem wheel_dispatchKey (e : KeyEvent) (s : Seat σ) :
    (dispatchKey e s).state.tab.wheel = s.tab.wheel := by
  refine Outcome.andThen_preserves (P := fun s' : Seat σ => s'.tab.wheel = s.tab.wheel) rfl ?_
  intro s' hs'
  unfold replyKey
  split
  · exact (wheel_send (by simp) _).trans hs'
  · exact hs'

theorem wheel_unlessSuppressed (e : KeyEvent) (s : Seat σ) :
    (unlessSuppressed e s).state.tab.wheel = s.tab.wheel := by
  unfold unlessSuppressed
  split
  · rfl
  · exact wheel_dispatchKey e s

theorem wheel_keyEvent (e : KeyEvent) (s : Seat σ) :
    (keyEvent e s).state.tab.wheel = s.tab.wheel := by
  refine Outcome.andThen_preserves (P := fun s' : Seat σ => s'.tab.wheel = s.tab.wheel)
    (wheel_flushInput s) ?_
  intro s' hs'
  split
  · dsimp only
    split
    · exact hs'
    · exact (wheel_unlessSuppressed e _).trans hs'
  · exact (wheel_unlessSuppressed e s').trans hs'

/-- What an act that comes to its end leaves of the wheel events of a tab. -/
inductive WheelLeft (s : Seat σ) (a : Act) (o : Outcome Effect (Seat σ)) : Prop
  /-- Nothing is left. -/
  | idle (h : o.state.tab.wheel.IsIdle)
  /-- What there was, since it was no wheel event. -/
  | same (act : a.isWheel = false) (h : o.state.tab.wheel = s.tab.wheel)
  /-- Something may be left, since another wheel event follows. -/
  | followed (e : Envelope) (act : a = .request e) (batch : s.tab.settings.batchWheel = true)
      (next : s.shared.queue.nextIsWheel s.tab.id e.channel e.priority = true)

/-- Of a wheel event something may be left only if another one follows. -/
theorem isIdle_wheelEvent {e : WheelEvent} {nextIsWheel : Bool}
    (hw : s.tab.wheel.IsIdle ∨ s.tab.settings.batchWheel = true)
    (hn : nextIsWheel = false ∨ s.tab.settings.batchWheel = false)
    (hf : (wheelEvent e nextIsWheel s).fault = none) :
    (wheelEvent e nextIsWheel s).state.tab.wheel.IsIdle := by
  unfold wheelEvent at hf ⊢
  have flushed := (Outcome.fault_andThen_eq_none_iff.mp hf).1
  rw [Outcome.state_andThen flushed]
  have settings : (flushInput s).state.tab.settings = s.tab.settings :=
    congrArg Standing.settings (feeds_flushInput s).standing
  have before := wheel_flushInput s
  cases hb : s.tab.settings.batchWheel with
  | true =>
    have last : WheelBatch.isFollowed e nextIsWheel = false := by
      rw [hb] at hn
      rcases hn with hn | hn
      · simp [WheelBatch.isFollowed, hn]
      · cases hn
    exact WheelBatch.isIdle_handle last _
  | false =>
    have idle : (flushInput s).state.tab.wheel.IsIdle := by
      rw [hb] at hw
      rw [before]
      rcases hw with hw | hw
      · exact hw
      · cases hw
    exact WheelBatch.isIdle_dispatch e idle

/-- A request that is no wheel event leaves what a live tab has of wheel events alone. -/
theorem wheel_request (build : Build) {e : Envelope} (hl : s.tab.state.isLive = true)
    (ha : (Act.request e).tearsDown = false) (hw : e.request.isWheel = false) :
    (act build (.request e) s).state.tab.wheel = s.tab.wheel := by
  obtain ⟨tab, channel, priority, request⟩ := e
  simp only [act, handle, hl, if_true, handleLive]
  cases request with
  | destroy => simp [Act.tearsDown, Act.asksDestroy] at ha
  | channelClosed => simp [Act.tearsDown, Act.losesLink] at ha
  | setRenderState enabled force epoch => exact (notifies_requestRender enabled force epoch s).wheel
  | paintWhileInterrupting epoch force =>
    exact (notifies_paintWhileInterrupting epoch force s).wheel
  | setActive active => exact (notifies_setActive active s).wheel
  | initRendering surface => exact (notifies_initRendering surface s).wheel
  | pointerMove m => exact wheel_pointerMove m s
  | synthPointerMove m => exact wheel_pointerEvent _ s
  | button b => exact wheel_pointerEvent _ s
  | key k => exact wheel_keyEvent k s
  | wheel w => cases hw

/-- So does whatever else is done to it short of tearing it down. -/
theorem wheel_act (build : Build) {a : Act} (hl : s.tab.state.isLive = true)
    (ha : a.tearsDown = false) (hw : a.isWheel = false) :
    (act build a s).state.tab.wheel = s.tab.wheel := by
  cases a with
  | request e => exact wheel_request build hl ha hw
  | flush => exact wheel_flushInput s
  | addBlocker => exact (notifies_addBlocker build s).wheel
  | removeBlocker => exact (notifies_removeBlocker build s).wheel
  | destroy => simp [Act.tearsDown, Act.asksDestroy] at ha
  | pass d =>
    rw [act, runDelete_of_live d hl]
    rfl
  | push e => rfl
  | hangUp =>
    rw [act, hangUp]
    split <;> rfl
  | drop => simp [Act.tearsDown] at ha

/-- A live tab takes in a wheel event, given whether another one waits behind it. -/
theorem act_wheel (build : Build) {e : Envelope} {w : WheelEvent} (hl : s.tab.state.isLive = true)
    (he : e.request = .wheel w) : act build (.request e) s =
      wheelEvent w (s.shared.queue.nextIsWheel s.tab.id e.channel e.priority) s := by
  simp only [act, handle, hl, if_true, he, handleLive]

/-- An act leaves nothing of the wheel events of a tab, or leaves them alone, unless it
delivers one that another one follows. -/
theorem wheelLeft_act (build : Build) {a : Act} (hs : s.tab.Sound)
    (hw : s.tab.wheel.IsIdle ∨ s.tab.settings.batchWheel = true)
    (hf : (act build a s).fault = none) : WheelLeft s a (act build a s) := by
  cases does_act build a hs with
  | works live ha _ =>
    cases hwheel : a.isWheel with
    | false => exact .same hwheel (wheel_act build live ha hwheel)
    | true =>
      obtain ⟨e, w, rfl, he⟩ := Act.exists_of_isWheel hwheel
      rw [act_wheel build live he] at hf ⊢
      cases hb : s.tab.settings.batchWheel with
      | false => exact .idle (isIdle_wheelEvent hw (Or.inr hb) hf)
      | true =>
        cases hn : s.shared.queue.nextIsWheel s.tab.id e.channel e.priority with
        | false =>
          rw [hn] at hf
          exact .idle (isIdle_wheelEvent hw (Or.inl rfl) hf)
        | true => exact .followed e rfl hb hn
  | hungUp _ ha _ heq =>
    rw [heq, ha]
    exact .same rfl rfl
  | tornDown _ _ ht =>
    refine .idle ?_
    rw [ht.tab]
    exact WheelBatch.isIdle_empty
  | rests live hr =>
    obtain ⟨stage, ipcOpen, link, heq⟩ := (hr.idles live).tab
    refine .idle ?_
    rw [heq, (hs.tornDown live).wheel]
    exact WheelBatch.isIdle_empty

/-- A tab keeps its settings, whatever is done to it. -/
theorem settings_act (build : Build) (a : Act) (hs : s.tab.Sound) :
    (act build a s).state.tab.settings = s.tab.settings := by
  cases does_act build a hs with
  | works _ _ hw => exact congrArg Standing.settings hw.standing
  | hungUp _ _ _ heq =>
    rw [heq]
    rfl
  | tornDown _ _ ht =>
    rw [ht.tab]
    rfl
  | rests live hr =>
    obtain ⟨stage, ipcOpen, link, heq⟩ := (hr.idles live).tab
    rw [heq]

end Seat

end TabHost
