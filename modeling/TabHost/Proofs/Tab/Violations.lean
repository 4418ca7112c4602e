import TabHost.Proofs.Tab.Demand

/-!
# What breaks the protocol

There are two things that a tab does not put up with (`Tab.breach?`): a second destroy, and the
removal of a blocker that it does not have. A checked build stops at either before anything else
happens, and at no other act (`Seat.violation_act_iff`): what else may stop an act is arithmetic.

A live tab has the blockers that were added and not removed again (`Seat.blockers_act`).
-/

set_option linter.unusedSectionVars false

namespace TabHost

/-! ## Outcomes without a violation -/

namespace Outcome

variable {ε δ α β : Type} {o : Outcome ε α}

/-- It is no violation of the protocol that stops an operation, if anything does. -/
structure Abides (o : Outcome ε α) : Prop where
  fault_ne : ∀ tab v, o.fault ≠ some (.violation tab v)

theorem Abides.of_fault_eq_none (h : o.fault = none) : o.Abides :=
  ⟨fun _ _ hv => by cases h.symm.trans hv⟩

theorem Abides.of_late (h : o.fault = some .durationOverflow) : o.Abides :=
  ⟨fun _ _ hv => by cases h.symm.trans hv⟩

theorem Abides.andThen {f : α → Outcome ε α} (h : o.Abides) (hf : ∀ s, (f s).Abides) :
    (o.andThen f).Abides := by
  cases ho : o.fault with
  | some e =>
    rw [andThen_of_fault ho]
    exact h
  | none =>
    refine ⟨fun tab v => ?_⟩
    rw [fault_andThen ho]
    exact (hf o.state).fault_ne tab v

theorem Abides.map (h : o.Abides) (f : α → β) : (o.map f).Abides := ⟨h.fault_ne⟩

theorem Abides.lift (h : o.Abides) (f : ε → δ) : (o.lift f).Abides := ⟨h.fault_ne⟩

end Outcome

variable {σ : Type} [Content σ]

/-! ## Input -/

namespace Stage

theorem abides_perform (call : Call) (r : Reaction σ) (s : Stage σ) :
    (s.perform call r).Abides := by
  rcases s.perform_cases call r with ⟨-, late⟩ | ⟨clock, h⟩
  · exact .of_late late
  · rw [h]
    exact .of_fault_eq_none rfl

theorem abides_drainWithin (n : Nat) (s : Stage σ) : (drainWithin n s).Abides := by
  induction n generalizing s with
  | zero => exact .of_fault_eq_none rfl
  | succ n ih =>
    rw [drainWithin]
    split
    · exact .of_fault_eq_none rfl
    · exact (abides_perform ..).andThen ih

end Stage

namespace WheelBatch

theorem abides_dispatchPending (s : WheelBatch × Stage σ) : (dispatchPending s).Abides := by
  unfold dispatchPending
  split
  · exact .of_fault_eq_none rfl
  · exact (Stage.abides_perform ..).map _

theorem abides_dispatch (e : WheelEvent) (s : WheelBatch × Stage σ) : (dispatch e s).Abides :=
  (Stage.abides_perform ..).map _

theorem abides_measure (before : Duration) (e : WheelEvent) (s : WheelBatch × Stage σ) :
    (measure before e s).Abides := by
  unfold measure
  dsimp only
  split
  · exact .of_late rfl
  · exact .of_fault_eq_none rfl

theorem abides_handle (e : WheelEvent) (nextIsWheel : Bool) (s : WheelBatch × Stage σ) :
    (handle e nextIsWheel s).Abides := by
  unfold handle
  split
  · exact .of_late rfl
  · exact .of_fault_eq_none rfl
  · split
    · exact ((abides_dispatchPending _).andThen (abides_dispatch e)).andThen (abides_measure _ e)
    · exact (abides_dispatchPending _).andThen (abides_dispatch e)

end WheelBatch

namespace Seat

theorem abides_perform {f : Stage σ → Outcome Call (Stage σ)} (hf : ∀ s, (f s).Abides)
    (s : Seat σ) : (perform f s).Abides :=
  ((hf s.stage).map _).lift _

theorem abides_drain (s : Seat σ) : (drain s).Abides :=
  abides_perform (fun _ => Stage.abides_drainWithin _ _) s

theorem abides_pointerEvent (e : PointerEvent) (s : Seat σ) : (pointerEvent e s).Abides := by
  unfold pointerEvent
  split
  · exact .of_fault_eq_none rfl
  · exact abides_drain _

theorem abides_pointerMove (e : PointerMove) (s : Seat σ) : (pointerMove e s).Abides := by
  unfold pointerMove
  split
  · split
    · exact .of_fault_eq_none rfl
    · dsimp only
      split
      · exact abides_drain _
      · exact .of_fault_eq_none rfl
  · exact abides_pointerEvent _ s

theorem abides_flushInput (s : Seat σ) : (flushInput s).Abides := by
  unfold flushInput
  split
  · split
    · exact .of_fault_eq_none rfl
    · split
      · exact .of_fault_eq_none rfl
      · exact abides_drain _
  · exact .of_fault_eq_none rfl

theorem abides_performWheel {f : WheelBatch × Stage σ → Outcome Call (WheelBatch × Stage σ)}
    (hf : ∀ r, (f r).Abides) (s : Seat σ) : (performWheel f s).Abides :=
  ((hf _).map _).lift _

theorem abides_wheelEvent (e : WheelEvent) (nextIsWheel : Bool) (s : Seat σ) :
    (wheelEvent e nextIsWheel s).Abides := by
  refine (abides_flushInput s).andThen fun s => abides_performWheel (fun r => ?_) s
  split
  · exact WheelBatch.abides_handle e nextIsWheel r
  · exact (WheelBatch.abides_dispatchPending r).andThen (WheelBatch.abides_dispatch e)

theorem fault_send (r : Reply) (s : Seat σ) : (send r s).fault = none := by
  unfold send
  split
  · split
    · rfl
    · split <;> rfl
  · rfl

theorem abides_unlessSuppressed (e : KeyEvent) (s : Seat σ) : (unlessSuppressed e s).Abides := by
  unfold unlessSuppressed
  split
  · exact .of_fault_eq_none rfl
  · unfold dispatchKey
    refine (abides_perform (fun _ => Stage.abides_perform ..) s).andThen fun s => ?_
    unfold replyKey
    split
    · exact .of_fault_eq_none (fault_send ..)
    · exact .of_fault_eq_none rfl

theorem abides_keyEvent (e : KeyEvent) (s : Seat σ) : (keyEvent e s).Abides := by
  refine (abides_flushInput s).andThen fun s => ?_
  dsimp only
  split
  · split
    · exact .of_fault_eq_none rfl
    · exact abides_unlessSuppressed e _
  · exact abides_unlessSuppressed e s

/-! ## Rendering and activation -/

theorem abides_requestRender (enabled force : Bool) (epoch : Epoch) (s : Seat σ) :
    (requestRender enabled force epoch s).Abides := by
  rcases requestRender_cases enabled force epoch s with ⟨-, h⟩ | ⟨-, -, h⟩ | ⟨-, -, h⟩ <;> rw [h]
  · exact .of_fault_eq_none rfl
  · exact .of_fault_eq_none rfl
  · exact .of_fault_eq_none (applyRender_spec ..).1

theorem abides_addBlocker (build : Build) (s : Seat σ) : (addBlocker build s).Abides := by
  unfold addBlocker Gate.addBlocker
  split
  · split
    · exact ⟨fun tab v hv => by cases hv⟩
    · exact .of_fault_eq_none rfl
  · exact .of_fault_eq_none rfl

end Seat

/-! ## Breaches -/

/-- What an act is against the protocol, if it is anything, for a tab that is there. -/
def Tab.breach? (t : Tab σ) (a : Act) : Option Violation :=
  if t.state.isLive then
    match a with
    | .removeBlocker => if t.gate.blockers = 0 then some .notBlocked else none
    | _ => none
  else if a.asksDestroy then some .destroyedTwice
  else none

namespace Seat

variable {s : Seat σ} {a : Act} {v : Violation}

/-- An act against the protocol is a violation and nothing else. -/
theorem act_of_breach? (build : Build) (hb : s.tab.breach? a = some v) :
    act build a s = .violation build s.tab.id v s := by
  unfold Tab.breach? at hb
  split at hb
  · next live =>
    cases a with
    | removeBlocker =>
      dsimp only at hb
      split at hb
      · next free =>
        cases hb
        simp [act, removeBlocker, live, Gate.removeBlocker?_eq_none_iff.mpr free]
      · cases hb
    | _ => cases hb
  · next dead =>
    split at hb
    · next asks =>
      cases hb
      cases a with
      | destroy => simp [act, destroy, dead]
      | request e =>
        obtain ⟨tab, channel, priority, request⟩ := e
        cases request with
        | destroy => simp [act, handle, handleDying, destroy, dead]
        | _ => cases asks
      | _ => cases asks
    · cases hb

theorem abides_request_of_live (build : Build) {e : Envelope} (hl : s.tab.state.isLive = true)
    (ha : (Act.request e).tearsDown = false) : (act build (.request e) s).Abides := by
  obtain ⟨tab, channel, priority, request⟩ := e
  simp only [act, handle, hl, if_true, handleLive]
  cases request with
  | destroy => cases ha
  | channelClosed => cases ha
  | setRenderState enabled force epoch => exact abides_requestRender enabled force epoch s
  | paintWhileInterrupting epoch force =>
    dsimp only
    unfold paintWhileInterrupting
    split
    · exact abides_requestRender true force epoch s
    · exact .of_fault_eq_none rfl
  | setActive active =>
    dsimp only
    unfold setActive
    split <;> exact .of_fault_eq_none rfl
  | initRendering surface => exact .of_fault_eq_none rfl
  | pointerMove m => exact abides_pointerMove m s
  | synthPointerMove m => exact abides_pointerEvent _ s
  | button b => exact abides_pointerEvent _ s
  | wheel w => exact abides_wheelEvent w _ s
  | key k => exact abides_keyEvent k s

theorem abides_act_of_live (build : Build) (hl : s.tab.state.isLive = true)
    (hd : s.tab.contentDestroyed = false) (hb : s.tab.breach? a = none) :
    (act build a s).Abides := by
  cases ha : a.tearsDown with
  | true => exact .of_fault_eq_none (tearsDown_act build hl hd ha).fault
  | false =>
    cases a with
    | request e => exact abides_request_of_live build hl ha
    | flush => exact abides_flushInput s
    | addBlocker => exact abides_addBlocker build s
    | removeBlocker =>
      have held : s.tab.gate.blockers ≠ 0 := fun free => by
        simp [Tab.breach?, hl, free] at hb
      rcases removeBlocker_cases build hl with ⟨free, -⟩ | ⟨-, h⟩ | ⟨-, h⟩
      · exact absurd free held
      · rw [act, h]
        exact .of_fault_eq_none rfl
      · rw [act, h]
        exact .of_fault_eq_none (replay_cases ..).1
    | destroy => cases ha
    | pass d =>
      rw [act, runDelete_of_live d hl]
      exact .of_fault_eq_none rfl
    | push e => exact .of_fault_eq_none rfl
    | hangUp =>
      rw [act, hangUp]
      split <;> exact .of_fault_eq_none rfl
    | drop => cases ha

/-- Nothing stops what is done to a tab that is being torn down, short of another destroy. -/
theorem ends_act_of_dying (build : Build) (hl : s.tab.state.isLive = false)
    (ht : s.tab.IsTornDown) (alive : s.tab.state ≠ .deleted) (ha : a.asksDestroy = false) :
    (act build a s).fault = none := by
  cases a with
  | request e =>
    obtain ⟨tab, channel, priority, request⟩ := e
    simp only [act, handle, hl, Bool.false_eq_true, if_false]
    cases request with
    | destroy => cases ha
    | channelClosed =>
      have gone : ({ s with tab := { s.tab with ipcOpen := false } } : Seat σ).tab.IsTornDown :=
        ⟨ht.moves, ht.wheel, ht.keys, ht.gate, ht.surface, ht.handle, ht.contentDestroyed⟩
      simp only [handleDying, channelClosed, destroyWindow_of_tornDown gone]
      rfl
    | _ => simp [handleDying]
  | flush => simp [act, flushInput, hl]
  | addBlocker => simp [act, addBlocker, hl]
  | removeBlocker => simp [act, removeBlocker, hl]
  | destroy => cases ha
  | pass d =>
    rw [act, runDelete]
    split
    · rfl
    · exact fault_send ..
    · rfl
  | push e => rfl
  | hangUp =>
    rw [act, hangUp]
    split <;> rfl
  | drop =>
    rw [act, destroyWindow_of_tornDown ht]
    rfl

/-- A checked build stops at what is against the protocol, and calls nothing else so. -/
theorem violation_act_iff {tab : TabId} (h : s.tab.Sound) (alive : s.tab.state ≠ .deleted) :
    (act .checked a s).fault = some (.violation tab v) ↔
      tab = s.tab.id ∧ s.tab.breach? a = some v := by
  cases hb : s.tab.breach? a with
  | some v' =>
    rw [act_of_breach? .checked hb]
    constructor
    · intro hv
      cases hv
      exact ⟨rfl, rfl⟩
    · rintro ⟨rfl, hv⟩
      cases hv
      rfl
  | none =>
    have abides : (act .checked a s).Abides := by
      cases hl : s.tab.state.isLive with
      | true => exact abides_act_of_live .checked hl (h.live hl).2 hb
      | false =>
        have calm : a.asksDestroy = false := by
          simpa [Tab.breach?, hl] using hb
        exact .of_fault_eq_none
          (ends_act_of_dying .checked hl (h.tornDown hl) alive calm)
    exact ⟨fun hv => absurd hv (abides.fault_ne tab v), fun hv => by cases hv.2⟩

end Seat

/-! ## Blockers -/

/-- Whether an act adds a blocker. -/
def Act.blocks : Act → Bool
  | .addBlocker => true
  | _ => false

/-- Whether an act removes a blocker. -/
def Act.releases : Act → Bool
  | .removeBlocker => true
  | _ => false

theorem Tab.counts_demand? {t : Tab σ} {a : Act} {d : Demand} (hd : t.demand? a = some d) :
    a.blocks = decide (d = .block) ∧ a.releases = decide (d = .release) := by
  cases a with
  | addBlocker => cases hd; exact ⟨rfl, rfl⟩
  | removeBlocker => cases hd; exact ⟨rfl, rfl⟩
  | request e =>
    obtain ⟨tab, channel, priority, request⟩ := e
    cases request with
    | setActive a => cases hd; exact ⟨rfl, rfl⟩
    | setRenderState enabled force epoch => cases hd; exact ⟨rfl, rfl⟩
    | paintWhileInterrupting epoch force =>
      simp only [demand?] at hd
      split at hd
      · cases hd; exact ⟨rfl, rfl⟩
      · cases hd
    | _ => cases hd
  | _ => cases hd

theorem Tab.uncounted_of_demand? {t : Tab σ} {a : Act} (hd : t.demand? a = none) :
    a.blocks = false ∧ a.releases = false := by
  cases a with
  | addBlocker | removeBlocker => cases hd
  | _ => exact ⟨rfl, rfl⟩

namespace Seat

variable {s : Seat σ} {a : Act}

theorem blockers_addBlocker (hl : s.tab.state.isLive = true)
    (hf : (addBlocker .checked s).fault = none) :
    (addBlocker .checked s).state.tab.gate.blockers.toNat = s.tab.gate.blockers.toNat + 1 := by
  have room : s.tab.gate.blockers.toNat + 1 < UInt32.size := by
    refine Nat.lt_of_le_of_ne s.tab.gate.blockers.toNat_lt fun full => ?_
    rw [addBlocker, if_pos hl, Gate.addBlocker, if_pos ⟨rfl, full⟩] at hf
    cases hf
  obtain ⟨added, count⟩ := Gate.addBlocker_of_room (ε := Effect) .checked room
  rw [addBlocker, if_pos hl, added]
  exact count

/-- A live tab has one blocker more for each that is added, and one less for each that is
removed, while a checked build does not stop. -/
theorem blockers_act (hl : s.tab.state.isLive = true) (ha : a.tearsDown = false)
    (hf : (act .checked a s).fault = none) :
    (act .checked a s).state.tab.gate.blockers.toNat + a.releases.toNat =
      s.tab.gate.blockers.toNat + a.blocks.toNat := by
  cases hd : s.tab.demand? a with
  | none =>
    obtain ⟨blocks, releases⟩ := Tab.uncounted_of_demand? hd
    rw [(disregards_act .checked hl ha hd).gate, blocks, releases]
  | some d =>
    obtain ⟨blocks, releases⟩ := Tab.counts_demand? hd
    rw [act_of_demand? .checked hl hd] at hf ⊢
    rw [blocks, releases]
    cases d with
    | block => exact blockers_addBlocker hl hf
    | activate a =>
      have heeds := heeds_setActive .checked a s
      simp only [Demand.operation] at *
      generalize setActive a s = o at heeds
      cases heeds <;> rfl
    | render force r =>
      have heeds := heeds_requestRender .checked force r s
      simp only [Demand.operation] at *
      generalize requestRender r.enabled force r.epoch s = o at heeds
      cases heeds with
      | rendered =>
        obtain ⟨-, content, htab⟩ := applyRender_spec r.enabled force r.epoch
          { s with tab := { s.tab with epoch := r.epoch } }
        rw [htab]
        rfl
      | _ => rfl
    | release =>
      have heeds := heeds_removeBlocker .checked hl
      simp only [Demand.operation] at *
      generalize removeBlocker .checked s = o at heeds hf
      cases heeds with
      | unheld => cases hf
      | released count => exact count
      | replayed last =>
        obtain ⟨-, ⟨content, htab⟩, -⟩ :=
          replay_cases s.tab.gate.active s.tab.gate.render (s.setGate {})
        rw [htab, last]
        rfl

end Seat

end TabHost
