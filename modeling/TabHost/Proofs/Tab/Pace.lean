import TabHost.Proofs.Batch.Pace
import TabHost.Proofs.Tab.Violations
import TabHost.Proofs.Tab.Wheel

/-!
# Tabs that keep pace

Whatever is done to a tab of headless content, its content takes as long for an event afterwards
as before, and what comes of it keeps pace (`Seat.paced_act`): of all that adds durations up, only
the clock can overflow. The times that the tab remembers of its wheel events stay small, too
(`Seat.timely_act`), since a wheel event is all that changes them, and its timestamp came from
the wire.
-/

set_option linter.unusedSectionVars false

namespace TabHost

namespace Seat

/-- An operation of a tab keeps pace. -/
abbrev Paced (s : Seat Headless) (o : Outcome Effect (Seat Headless)) : Prop :=
  o.KeepsPace (fun s => s.tab.content.cost) (fun s => s.shared.clock) s

variable {s : Seat Headless} {o : Outcome Effect (Seat Headless)}

/-! ## Input -/

theorem paced_perform {f : Stage Headless → Outcome Call (Stage Headless)}
    (h : Stage.Paced s.stage (f s.stage)) : Paced s (perform f s) := by
  have paced : ((f s.stage).map s.leaveStage).KeepsPace
      (fun s : Seat Headless => s.tab.content.cost) (fun s => s.shared.clock) s :=
    h.map rfl rfl rfl
  exact paced.lift _

theorem paced_drain (s : Seat Headless) : Paced s (drain s) := paced_perform (Stage.paced_drain _)

theorem paced_pointerEvent (e : PointerEvent) (s : Seat Headless) : Paced s (pointerEvent e s) := by
  unfold pointerEvent
  split
  · exact .ok s
  · exact (paced_drain _).of_same rfl

theorem paced_pointerMove (e : PointerMove) (s : Seat Headless) : Paced s (pointerMove e s) := by
  unfold pointerMove
  split
  · split
    · exact .ok s
    · dsimp only
      split
      · exact (paced_drain _).of_same rfl
      · exact .of_onTime rfl (by simp)
  · exact paced_pointerEvent _ s

theorem paced_flushInput (s : Seat Headless) : Paced s (flushInput s) := by
  unfold flushInput
  split
  · split
    · exact .ok s
    · split
      · exact .ok s
      · exact (paced_drain _).of_same rfl
  · exact .ok s

theorem paced_replyKey (e : KeyEvent) (status : EventStatus) (s : Seat Headless) :
    Paced s (replyKey e status s) := by
  have same : (replyKey e status s).state.tab.content = s.tab.content := by
    unfold replyKey
    split
    · rcases send_cases (r := .keyHandled e (status = .consumeNoDefault)) (by simp) s with
        h | ⟨l, -, -, -, h⟩ <;> rw [h] <;> rfl
    · rfl
  refine .of_onTime (congrArg Headless.cost same) ?_
  unfold replyKey
  split
  · rw [fault_send]
    simp
  · simp

theorem paced_unlessSuppressed (e : KeyEvent) (s : Seat Headless) :
    Paced s (unlessSuppressed e s) := by
  unfold unlessSuppressed
  split
  · exact .ok s
  · unfold dispatchKey
    refine (paced_perform (Stage.paced_key e s.stage)).andThen fun _ => ?_
    exact (paced_replyKey e _ _).of_same rfl

theorem paced_keyEvent (e : KeyEvent) (s : Seat Headless) : Paced s (keyEvent e s) := by
  refine (paced_flushInput s).andThen fun _ => ?_
  dsimp only
  split
  · split
    · exact .of_onTime rfl (by simp)
    · exact (paced_unlessSuppressed e _).of_same rfl
  · exact paced_unlessSuppressed e _

end Seat

/-- The content of a tab takes no longer than can be told on the wire, and the times that the tab
remembers of its wheel events are small. -/
structure Tab.Timely (t : Tab Headless) : Prop where
  slow : t.content.cost.nanos ≤ Duration.wireLimit
  wheel : t.wheel.Timely t.content.cost

namespace Seat

variable {s : Seat Headless} {o : Outcome Effect (Seat Headless)}

theorem paced_performWheel
    {f : WheelBatch × Stage Headless → Outcome Call (WheelBatch × Stage Headless)}
    (h : WheelBatch.Paced (s.tab.wheel, s.stage) (f (s.tab.wheel, s.stage))) :
    Paced s (performWheel f s) := by
  have paced : ((f (s.tab.wheel, s.stage)).map fun r =>
      let s := s.leaveStage r.2
      ({ s with tab := { s.tab with wheel := r.1 } } : Seat Headless)).KeepsPace
      (fun s : Seat Headless => s.tab.content.cost) (fun s => s.shared.clock) s :=
    h.map rfl rfl rfl
  exact paced.lift _

/-- A wheel event from the wire keeps pace, and keeps the tab timely. -/
theorem paced_wheelEvent {e : WheelEvent} (ht : s.tab.Timely)
    (early : e.timestamp.nanos ≤ Duration.wireLimit) (nextIsWheel : Bool) :
    Paced s (wheelEvent e nextIsWheel s) ∧ ((wheelEvent e nextIsWheel s).fault = none →
      (wheelEvent e nextIsWheel s).state.tab.wheel.Timely s.tab.content.cost) := by
  have flushed := paced_flushInput s
  have timely : (flushInput s).state.tab.wheel.Timely (flushInput s).state.tab.content.cost := by
    rw [wheel_flushInput s, flushed.cost]
    exact ht.wheel
  have slow : (flushInput s).state.tab.content.cost.nanos ≤ Duration.wireLimit := by
    rw [flushed.cost]
    exact ht.slow
  have same := flushed.cost
  unfold wheelEvent
  generalize flushInput s = o at flushed timely slow same ⊢
  cases s.tab.settings.batchWheel with
  | true =>
    obtain ⟨paced, after⟩ := WheelBatch.paced_handle (s := (o.state.tab.wheel, o.state.stage))
      timely slow early nextIsWheel
    refine ⟨flushed.andThen fun _ => paced_performWheel paced, fun hf => ?_⟩
    obtain ⟨first, second⟩ := Outcome.fault_andThen_eq_none_iff.mp hf
    rw [Outcome.state_andThen first, ← same]
    exact after second
  | false =>
    obtain ⟨paced, after⟩ := WheelBatch.paced_unbatched (e := e)
      (s := (o.state.tab.wheel, o.state.stage)) timely
    refine ⟨flushed.andThen fun _ => paced_performWheel paced, fun hf => ?_⟩
    obtain ⟨first, second⟩ := Outcome.fault_andThen_eq_none_iff.mp hf
    rw [Outcome.state_andThen first, ← same]
    exact after second

/-! ## What takes no time -/

theorem paced_of_notifies (h : Notifies s o) (ends : o.fault ≠ some .durationOverflow) :
    Paced s o := by
  refine .of_onTime ?_ ends
  rw [h.content]
  exact s.tab.content.cost_after _

theorem paced_requestRender (enabled force : Bool) (epoch : Epoch) (s : Seat Headless) :
    Paced s (requestRender enabled force epoch s) := by
  refine paced_of_notifies (notifies_requestRender enabled force epoch s) ?_
  rcases requestRender_cases enabled force epoch s with ⟨-, h⟩ | ⟨-, -, h⟩ | ⟨-, -, h⟩ <;> rw [h]
  · simp
  · simp
  · rw [(applyRender_spec ..).1]
    simp

theorem paced_addBlocker (build : Build) (s : Seat Headless) : Paced s (addBlocker build s) := by
  refine paced_of_notifies (notifies_addBlocker build s) ?_
  unfold addBlocker Gate.addBlocker
  split
  · split <;> simp [Outcome.fail]
  · simp

theorem paced_removeBlocker (build : Build) (s : Seat Headless) :
    Paced s (removeBlocker build s) := by
  refine paced_of_notifies (notifies_removeBlocker build s) ?_
  unfold removeBlocker
  split
  · split
    · cases build <;> simp [Outcome.violation, Outcome.fail]
    · simp
    · rw [(replay_cases ..).1]
      simp
  · simp

/-- A request that a live tab goes about its work with keeps pace. -/
theorem paced_request (build : Build) {e : Envelope} (hl : s.tab.state.isLive = true)
    (ha : (Act.request e).tearsDown = false) (hw : e.request.isWheel = false) :
    Paced s (act build (.request e) s) := by
  obtain ⟨tab, channel, priority, request⟩ := e
  simp only [act, handle, hl, if_true, handleLive]
  cases request with
  | destroy => cases ha
  | channelClosed => cases ha
  | setRenderState enabled force epoch => exact paced_requestRender enabled force epoch s
  | paintWhileInterrupting epoch force =>
    dsimp only
    unfold paintWhileInterrupting
    split
    · exact paced_requestRender true force epoch s
    · exact .ok s
  | setActive active =>
    refine paced_of_notifies (notifies_setActive active s) ?_
    dsimp only
    unfold setActive
    split <;> simp [notify, Outcome.emit]
  | initRendering surface => exact paced_of_notifies (notifies_initRendering surface s) (by simp)
  | pointerMove m => exact paced_pointerMove m s
  | synthPointerMove m => exact paced_pointerEvent _ s
  | button b => exact paced_pointerEvent _ s
  | key k => exact paced_keyEvent k s
  | wheel w => cases hw

/-- So does whatever else is done to it short of tearing it down. -/
theorem paced_act_of_live (build : Build) {a : Act} (hl : s.tab.state.isLive = true)
    (ha : a.tearsDown = false) (hw : a.isWheel = false) : Paced s (act build a s) := by
  cases a with
  | request e => exact paced_request build hl ha hw
  | flush => exact paced_flushInput s
  | addBlocker => exact paced_addBlocker build s
  | removeBlocker => exact paced_removeBlocker build s
  | destroy => cases ha
  | pass d =>
    rw [act, runDelete_of_live d hl]
    exact .ok s
  | push e => exact .of_onTime rfl (by simp [act])
  | hangUp =>
    rw [act, hangUp]
    split
    · exact .of_onTime rfl (by simp)
    · exact .ok s
  | drop => cases ha

/-- A tab that is torn down adds no durations up. -/
theorem onTime_act_of_dying (build : Build) (a : Act) (hl : s.tab.state.isLive = false) :
    (act build a s).fault ≠ some .durationOverflow := by
  have violation : ∀ v, (Outcome.violation build s.tab.id v s :
      Outcome Effect (Seat Headless)).fault ≠ some .durationOverflow := by
    intro v
    cases build <;> simp [Outcome.violation, Outcome.fail]
  have closes : ∀ s : Seat Headless, (destroyWindow s).fault = none := by
    intro s
    unfold destroyWindow destroyContent
    split <;> rfl
  cases a with
  | request e =>
    obtain ⟨tab, channel, priority, request⟩ := e
    simp only [act, handle, hl, Bool.false_eq_true, if_false]
    cases request with
    | destroy =>
      simp only [handleDying, destroy, hl]
      exact violation _
    | channelClosed =>
      simp only [handleDying, channelClosed, Outcome.fault_map, closes]
      simp
    | _ =>
      simp only [handleDying]
      cases s.tab.state with
      | deleted => exact violation _
      | _ => simp
  | flush => simp [act, flushInput, hl]
  | addBlocker => simp [act, addBlocker, hl]
  | removeBlocker => simp [act, removeBlocker, hl]
  | destroy =>
    rw [act, destroy, hl]
    exact violation _
  | pass d =>
    rw [act, runDelete]
    split
    · simp
    · rw [finishDelete, Outcome.fault_map, fault_send]
      simp
    · simp
  | push e => simp [act]
  | hangUp =>
    rw [act, hangUp]
    split <;> simp
  | drop =>
    rw [act, closes]
    simp

/-- A tab at which a sum of durations has no value is live. -/
theorem live_of_late (build : Build) {a : Act} (hs : s.tab.Sound)
    (late : (act build a s).fault = some .durationOverflow) :
    (act build a s).state.tab.state.isLive = true := by
  cases does_act build a hs with
  | works live _ hw =>
    rw [hw.state]
    exact live
  | hungUp _ _ _ heq =>
    rw [heq] at late
    cases late
  | tornDown _ _ torn => cases torn.fault.symm.trans late
  | rests live => exact absurd late (onTime_act_of_dying build a live)

/-- Whatever is done to a timely tab keeps pace, and keeps the tab timely, as long as the wheel
events come from the wire. -/
theorem paced_act (build : Build) {a : Act} (hs : s.tab.Sound) (ht : s.tab.Timely)
    (early : ∀ e w, a = .request e → e.request = .wheel w →
      w.timestamp.nanos ≤ Duration.wireLimit) :
    Paced s (act build a s) ∧
      ((act build a s).fault = none → (act build a s).state.tab.Timely) := by
  have timely : ∀ {o : Outcome Effect (Seat Headless)}, Paced s o →
      o.state.tab.wheel.Timely s.tab.content.cost → o.state.tab.Timely := by
    intro o paced wheel
    have cost : o.state.tab.content.cost = s.tab.content.cost := paced.cost
    refine ⟨?_, ?_⟩ <;> rw [cost]
    · exact ht.slow
    · exact wheel
  cases does_act build a hs with
  | works live ha _ =>
    cases hwheel : a.isWheel with
    | false =>
      have paced := paced_act_of_live build live ha hwheel
      refine ⟨paced, fun _ => timely paced ?_⟩
      rw [wheel_act build live ha hwheel]
      exact ht.wheel
    | true =>
      obtain ⟨e, w, rfl, he⟩ := Act.exists_of_isWheel hwheel
      rw [act_wheel build live he]
      obtain ⟨paced, after⟩ := paced_wheelEvent ht (early e w rfl he)
        (s.shared.queue.nextIsWheel s.tab.id e.channel e.priority)
      exact ⟨paced, fun hf => timely paced (after hf)⟩
  | hungUp _ ha _ heq =>
    rw [heq]
    exact ⟨.of_onTime rfl (by simp), fun _ => ⟨ht.slow, ht.wheel⟩⟩
  | tornDown _ _ torn =>
    have content : (act build a s).state.tab.content =
        Content.notify .destroy s.tab.content := by
      rw [torn.tab]
      rfl
    have paced : Paced s (act build a s) := by
      refine .of_onTime ?_ (by rw [torn.fault]; simp)
      rw [content]
      exact s.tab.content.cost_content_react (.notice .destroy)
    refine ⟨paced, fun _ => timely paced ?_⟩
    rw [torn.tab]
    exact WheelBatch.timely_empty _
  | rests live hr =>
    obtain ⟨stage, ipcOpen, link, heq⟩ := (hr.idles live).tab
    have paced : Paced s (act build a s) :=
      .of_onTime (by rw [heq]) (onTime_act_of_dying build a live)
    refine ⟨paced, fun _ => timely paced ?_⟩
    rw [heq]
    exact ht.wheel

end Seat

end TabHost
