import TabHost.Proofs.Tab.Rendering
import TabHost.Proofs.Tab.Teardown

/-!
# Acknowledged epochs

A tab acknowledges a request about rendering when it is carried out, at once or once the
blockers are gone. What it may still acknowledge is newer than its epoch, or is put off by
its gate (`Tab.MayAcknowledge`); and each act only acknowledges what the tab could, and
leaves it with less to acknowledge, and newer (`Seat.acknowledges_act`). So the epochs that
a tab acknowledges ascend (`Tab.pairwise_acked_turns`), as long as the gate does not lose
count of its blockers: an unchecked build does so at `2^32` of them.
-/

set_option linter.unusedSectionVars false

namespace TabHost

variable {σ : Type} [Content σ]

/-! ## Epochs -/

/-- The epoch that a reply acknowledges. -/
def Reply.epoch? : Reply → Option Epoch
  | .acknowledge e => some e
  | _ => none

/-- The epochs that a tab acknowledges. -/
def acked (tab : TabId) (trace : List Effect) : List Epoch :=
  (saidBy tab trace).filterMap Reply.epoch?

theorem acked_append (tab : TabId) (a b : List Effect) :
    acked tab (a ++ b) = acked tab a ++ acked tab b := by
  simp [acked, saidBy_append]

@[simp] theorem acked_nil (tab : TabId) : acked tab [] = [] := rfl

@[simp] theorem acked_call (tab tab' : TabId) (c : Call) (rest : List Effect) :
    acked tab (.call tab' c :: rest) = acked tab rest := rfl

namespace Tab

/-- An epoch that a tab may still acknowledge: it is newer than all that the tab accepted, or
it is put off. -/
def MayAcknowledge (t : Tab σ) (e : Epoch) : Prop :=
  t.epoch < e ∨ ∃ r, t.gate.render = some r ∧ r.epoch = e

/-- Nothing is put off without a blocker, and what is put off was accepted. -/
structure Settled (t : Tab σ) : Prop where
  blocked : t.gate.blockers = 0 → t.gate.render = none
  accepted : ∀ r, t.gate.render = some r → ¬t.epoch < r.epoch

/-- A tab that was just created is settled. -/
theorem settled_connected (id : TabId) (settings : Settings) (content : σ) (link : ParentLink) :
    ((Tab.create id settings content).connected link).Settled :=
  ⟨fun _ => rfl, fun r hr => by cases hr⟩

theorem MayAcknowledge.of_same {t u : Tab σ} {e : Epoch} (hepoch : u.epoch = t.epoch)
    (hgate : u.gate.render = t.gate.render) (h : u.MayAcknowledge e) : t.MayAcknowledge e := by
  unfold MayAcknowledge at h ⊢
  rw [hepoch, hgate] at h
  exact h

end Tab

/-! ## Acts -/

namespace Seat

/-- What an operation acknowledges, and what may be acknowledged after it. -/
structure Acknowledges (tab : TabId) (s : Seat σ) (o : Outcome Effect (Seat σ)) : Prop where
  now : acked tab o.trace = [] ∨ ∃ e, acked tab o.trace = [e] ∧ s.tab.MayAcknowledge e ∧
    ∀ e', o.state.tab.MayAcknowledge e' → e < e'
  later : ∀ e, o.state.tab.MayAcknowledge e → s.tab.MayAcknowledge e
  settled : o.state.tab.Settled

variable {tab : TabId} {s : Seat σ} {o : Outcome Effect (Seat σ)}

/-- What says nothing of epochs and leaves them alone. -/
theorem Acknowledges.of_same (hs : s.tab.Settled) (htrace : acked tab o.trace = [])
    (hepoch : o.state.tab.epoch = s.tab.epoch)
    (hrender : o.state.tab.gate.render = s.tab.gate.render)
    (hblockers : o.state.tab.gate.blockers = 0 → s.tab.gate.blockers = 0) :
    Acknowledges tab s o := by
  refine ⟨Or.inl htrace, fun e h => h.of_same hepoch hrender, fun h => ?_, fun r hr => ?_⟩
  · rw [hrender]
    exact hs.blocked (hblockers h)
  · rw [hepoch]
    exact hs.accepted r (hrender ▸ hr)

theorem Acknowledges.of_closed (htrace : acked tab o.trace = [])
    (hepoch : o.state.tab.epoch = s.tab.epoch) (hgate : o.state.tab.gate = {}) :
    Acknowledges tab s o := by
  have none : o.state.tab.gate.render = none := by rw [hgate]
  refine ⟨Or.inl htrace, fun e h => Or.inl ?_, fun _ => none, fun r hr => ?_⟩
  · rcases h with h | ⟨r, hr, -⟩
    · rw [← hepoch]
      exact h
    · rw [none] at hr
      cases hr
  · rw [none] at hr
    cases hr

/-- Bringing a tab into a render state acknowledges its epoch, or nothing. -/
theorem acked_applyRender (tab : TabId) (enabled force : Bool) (epoch : Epoch) (s : Seat σ) :
    acked tab (applyRender enabled force epoch s).trace = [] ∨
      acked tab (applyRender enabled force epoch s).trace = [epoch] := by
  rw [applyRender, notify, Outcome.emit_andThen]
  dsimp only
  rw [acked_call]
  split
  · split
    · rcases send_cases (r := .acknowledge epoch) (by simp)
        { s with tab := { s.tab with content := Content.notify (.epoch epoch) s.tab.content } }
        with h | ⟨l, -, -, -, h⟩
      · rw [h]
        exact Or.inl rfl
      · rw [h]
        by_cases hl : l.tab = tab
        · exact Or.inr (by simp [Outcome.emit, acked, saidBy, Effect.replyOf?, hl, Reply.epoch?])
        · exact Or.inl (by simp [Outcome.emit, acked, saidBy, Effect.replyOf?, hl])
    · rw [enable, notify, Outcome.emit_andThen]
      exact Or.inl rfl
  · rw [disable, notify, Outcome.emit_andThen]
    exact Or.inl rfl

/-- A newer request that is carried out at once may be acknowledged. -/
theorem acknowledges_applyRender (enabled force : Bool) {epoch : Epoch} {s' : Seat σ}
    (hnew : s.tab.epoch < epoch) (hepoch' : s'.tab.epoch = epoch)
    (hgate' : s'.tab.gate = s.tab.gate) (hnone : s.tab.gate.render = none) :
    Acknowledges tab s (applyRender enabled force epoch s') := by
  have hacked := acked_applyRender tab enabled force epoch s'
  obtain ⟨-, content, htab⟩ := applyRender_spec enabled force epoch s'
  have hrender : (applyRender enabled force epoch s').state.tab.gate.render = none := by
    rw [htab]
    exact (congrArg Gate.render hgate').trans hnone
  have newer : ∀ e, (applyRender enabled force epoch s').state.tab.MayAcknowledge e →
      epoch < e := by
    intro e h
    rcases h with h | ⟨r, hr, -⟩
    · rw [htab] at h
      rw [← hepoch']
      exact h
    · rw [hrender] at hr
      cases hr
  refine ⟨hacked.imp_right fun h => ⟨epoch, h, Or.inl hnew, newer⟩,
    fun e h => Or.inl (Epoch.lt_trans hnew (newer e h)), fun _ => hrender, fun r hr => ?_⟩
  rw [hrender] at hr
  cases hr

theorem acknowledges_requestRender (enabled force : Bool) (epoch : Epoch) (hs : s.tab.Settled) :
    Acknowledges tab s (requestRender enabled force epoch s) := by
  rcases requestRender_cases enabled force epoch s with ⟨-, heq⟩ | ⟨hnew, hb, heq⟩ |
    ⟨hnew, hb, heq⟩ <;> rw [heq]
  · exact .of_same hs rfl rfl rfl id
  · refine ⟨Or.inl rfl, fun e h => Or.inl ?_, fun h => ?_, fun r hr => ?_⟩
    · rcases h with h | ⟨r, hr, rfl⟩
      · exact Epoch.lt_trans hnew h
      · cases hr
        exact hnew
    · have hzero : s.tab.gate.blockers = 0 := h
      rw [Gate.isBlocked_eq_false_iff.mpr hzero] at hb
      cases hb
    · cases hr
      exact Epoch.not_lt_self epoch
  · exact acknowledges_applyRender enabled force hnew rfl rfl
      (hs.blocked (Gate.isBlocked_eq_false_iff.mp hb))

/-- A request that was put off may be acknowledged when it is carried out. -/
theorem acknowledges_replayRender {render : Option PendingRender} {s' : Seat σ}
    (hs : s.tab.Settled) (hr : s.tab.gate.render = render)
    (hepoch' : s'.tab.epoch = s.tab.epoch) (hgate' : s'.tab.gate = {}) :
    Acknowledges tab s (replayRender render s') := by
  cases render with
  | none => exact .of_closed rfl hepoch' hgate'
  | some r =>
    obtain ⟨-, content, htab⟩ := applyRender_spec r.enabled false r.epoch s'
    have hepoch : (applyRender r.enabled false r.epoch s').state.tab.epoch = s.tab.epoch := by
      rw [htab]
      exact hepoch'
    have hgate : (applyRender r.enabled false r.epoch s').state.tab.gate = {} := by
      rw [htab]
      exact hgate'
    rcases acked_applyRender tab r.enabled false r.epoch s' with hacked | hacked
    · exact .of_closed hacked hepoch hgate
    · have closed : Acknowledges tab s
          { replayRender (some r) s' with trace := [] } := .of_closed rfl hepoch hgate
      refine ⟨Or.inr ⟨r.epoch, hacked, Or.inr ⟨r, hr, rfl⟩, fun e h => ?_⟩, closed.later,
        closed.settled⟩
      rcases h with h | ⟨r', hr', -⟩
      · exact Epoch.lt_of_not_lt_of_lt (hs.accepted r hr) (hepoch ▸ h)
      · rw [show (replayRender (some r) s').state.tab.gate = {} from hgate] at hr'
        cases hr'

theorem acknowledges_replay (active : Option Bool) (hs : s.tab.Settled) :
    Acknowledges tab s
      (replay { active := active, render := s.tab.gate.render } (s.setGate {})) := by
  cases active with
  | none => exact acknowledges_replayRender hs rfl rfl rfl
  | some a =>
    have later : Acknowledges tab s (replayRender s.tab.gate.render
        { s.setGate {} with
          tab :=
            { s.tab with gate := {}, content := Content.notify (.active a) s.tab.content } }) :=
      acknowledges_replayRender hs rfl rfl rfl
    exact ⟨later.now, later.later, later.settled⟩

/-- Input acknowledges nothing. -/
theorem Feeds.acknowledges (h : Feeds s o) (hs : s.tab.Settled) : Acknowledges tab s o := by
  refine .of_same hs ?_ h.epoch (by rw [h.gate]) (by rw [h.gate]; exact id)
  refine List.filterMap_eq_nil_iff.mpr fun r hr => ?_
  obtain ⟨e, p, rfl⟩ := h.toWorks.replies hr
  rfl

theorem acknowledges_addBlocker {build : Build} (hs : s.tab.Settled)
    (hroom : build = .checked ∨ s.tab.gate.blockers.toNat + 1 < UInt32.size) :
    Acknowledges tab s (addBlocker build s) := by
  unfold addBlocker
  split
  · by_cases room : s.tab.gate.blockers.toNat + 1 < UInt32.size
    · obtain ⟨added, count⟩ := Gate.addBlocker_of_room (ε := Effect) build room
      rw [added]
      refine .of_same hs rfl rfl rfl fun h => ?_
      -- the count does not start again from zero
      rw [show s.tab.gate.blockers + 1 = 0 from h] at count
      cases count
    · -- a checked build stops
      have full : s.tab.gate.blockers.toNat + 1 = UInt32.size :=
        Nat.le_antisymm s.tab.gate.blockers.toNat_lt (Nat.not_lt.mp room)
      rw [Gate.addBlocker, if_pos ⟨hroom.resolve_right room, full⟩]
      exact .of_same hs rfl rfl rfl id
  · exact .of_same hs rfl rfl rfl id

theorem acknowledges_removeBlocker (build : Build) (hs : s.tab.Settled) :
    Acknowledges tab s (removeBlocker build s) := by
  cases hl : s.tab.state.isLive with
  | false =>
    rw [removeBlocker, hl]
    exact .of_same hs rfl rfl rfl id
  | true =>
    rcases removeBlocker_cases build hl with ⟨-, hstate, htrace⟩ | ⟨hmore, heq⟩ | ⟨-, heq⟩
    · exact .of_same hs (by rw [htrace]; rfl) (by rw [hstate]) (by rw [hstate])
        (by rw [hstate]; exact id)
    · rw [heq]
      refine .of_same hs rfl rfl rfl fun h => ?_
      have hone : s.tab.gate.blockers = 1 :=
        (UInt32.sub_eq_iff_eq_add.mp h).trans (UInt32.zero_add 1)
      rw [hone] at hmore
      exact absurd hmore (UInt32.lt_irrefl 1)
    · rw [heq]
      exact acknowledges_replay _ hs

theorem acknowledges_setActive (active : Bool) (hs : s.tab.Settled) :
    Acknowledges tab s (setActive active s) := by
  unfold setActive Gate.captureActive?
  split
  · next g hg =>
    split at hg
    · cases hg
      exact .of_same hs rfl rfl rfl id
    · cases hg
  · exact .of_same hs rfl rfl rfl id

theorem acknowledges_initRendering (surface : SurfaceId) (hs : s.tab.Settled) :
    Acknowledges tab s (.ok (s.initRendering surface)) := by
  unfold initRendering
  split
  · exact .of_same hs rfl rfl rfl id
  · dsimp only
    split <;> exact .of_same hs rfl rfl rfl id

theorem acknowledges_request (build : Build) {e : Envelope} (hl : s.tab.state.isLive = true)
    (ha : (Act.request e).tearsDown = false) (hs : s.tab.Settled) :
    Acknowledges tab s (act build (.request e) s) := by
  obtain ⟨tab', channel, priority, request⟩ := e
  simp only [act, handle, hl, if_true, handleLive]
  cases request with
  | destroy => simp [Act.tearsDown, Act.asksDestroy] at ha
  | channelClosed => simp [Act.tearsDown, Act.losesLink] at ha
  | setRenderState enabled force epoch => exact acknowledges_requestRender enabled force epoch hs
  | paintWhileInterrupting epoch force =>
    dsimp only
    unfold paintWhileInterrupting
    split
    · exact acknowledges_requestRender true force epoch hs
    · exact .of_same hs rfl rfl rfl id
  | setActive active => exact acknowledges_setActive active hs
  | initRendering surface => exact acknowledges_initRendering surface hs
  | pointerMove m => exact (feeds_pointerMove m s).acknowledges hs
  | synthPointerMove m => exact (feeds_pointerEvent _ s).acknowledges hs
  | button b => exact (feeds_pointerEvent _ s).acknowledges hs
  | wheel w => exact (feeds_wheelEvent w _ s).acknowledges hs
  | key k => exact (feeds_keyEvent k s).acknowledges hs

/-- Whatever is done to a tab, it acknowledges what it could and leaves what is newer. -/
theorem acknowledges_act (build : Build) {a : Act} (h : s.tab.Sound) (hs : s.tab.Settled)
    (hroom : a = .addBlocker → build = .checked ∨ s.tab.gate.blockers.toNat + 1 < UInt32.size) :
    Acknowledges tab s (act build a s) := by
  cases does_act build a h with
  | works live ha hw =>
    cases a with
    | request e => exact acknowledges_request build live ha hs
    | flush => exact (feeds_flushInput s).acknowledges hs
    | addBlocker => exact acknowledges_addBlocker hs (hroom rfl)
    | removeBlocker => exact acknowledges_removeBlocker build hs
    | destroy => simp [Act.tearsDown, Act.asksDestroy] at ha
    | pass d =>
      rw [act, runDelete_of_live d live]
      exact .of_same hs rfl rfl rfl id
    | push e => exact .of_same hs rfl rfl rfl id
    | hangUp =>
      rw [act, hangUp]
      split <;> exact .of_same hs rfl rfl rfl id
    | drop => simp [Act.tearsDown] at ha
  | hungUp _ _ _ heq =>
    rw [heq]
    exact .of_same hs rfl rfl rfl id
  | tornDown _ _ ht =>
    exact .of_closed (by rw [ht.trace]; rfl) (by rw [ht.tab]; rfl) (by rw [ht.tab]; rfl)
  | rests live hr =>
    have idles := hr.idles live
    obtain ⟨stage, ipcOpen, link, heq⟩ := idles.tab
    refine .of_closed ?_ (by rw [heq]) (by rw [heq]; exact (h.tornDown live).gate)
    rcases idles.trace with ht | ⟨l, -, -, ht, -⟩
    · rw [ht]
      rfl
    · rw [ht]
      by_cases hl : l.tab = tab <;> simp [acked, saidBy, Effect.replyOf?, Reply.epoch?, hl]

end Seat

/-! ## Turns -/

namespace Tab

/-- In some turns of a tab, its gate does not lose count of its blockers: a checked build
stops before, and an unchecked one comes to no `2^32` of them. -/
def KeepsCount (build : Build) (xs : List Turn) (t : Tab σ) : Prop :=
  build = .checked ∨ ∀ before x after, xs = before ++ x :: after → x.act = .addBlocker →
    (t.turns build before).state.gate.blockers.toNat + 1 < UInt32.size

theorem KeepsCount.tail {build : Build} {x : Turn} {xs : List Turn} {t : Tab σ}
    (h : t.KeepsCount build (x :: xs)) (hf : (t.turn build x).fault = none) :
    (t.turn build x).state.KeepsCount build xs := by
  refine h.imp_right fun h before y after heq hy => ?_
  have := h (x :: before) y after (by rw [heq]; rfl) hy
  rw [turns, Outcome.state_andThen hf] at this
  exact this

/-- The epochs that a tab acknowledges ascend, and are ones that it could acknowledge. -/
theorem pairwise_acked_turns (build : Build) (tab : TabId) (xs : List Turn) {t : Tab σ}
    (h : t.Sound) (hs : t.Settled) (hd : ∀ x ∈ xs, x.act ≠ .drop) (hc : t.KeepsCount build xs) :
    (acked tab (t.turns build xs).trace).Pairwise (· < ·) ∧
      ∀ e ∈ acked tab (t.turns build xs).trace, t.MayAcknowledge e := by
  induction xs generalizing t with
  | nil => exact ⟨.nil, fun e he => absurd he List.not_mem_nil⟩
  | cons x xs ih =>
    have first : Seat.Acknowledges tab (t.seat x) (Seat.act build x.act (t.seat x)) :=
      Seat.acknowledges_act build h hs fun ha => hc.imp_right fun hc => hc [] x xs rfl ha
    cases hf : (t.turn build x).fault with
    | some f =>
      rw [turns, Outcome.andThen_of_fault hf]
      rcases first.now with hnow | ⟨e, hnow, hmay, -⟩ <;>
        rw [show acked tab (t.turn build x).trace = _ from hnow]
      · exact ⟨.nil, fun e he => absurd he List.not_mem_nil⟩
      · exact ⟨List.pairwise_singleton _ _, fun e' he => List.mem_singleton.mp he ▸ hmay⟩
    | none =>
      have sound := Seat.sound_act build (s := t.seat x) h (hd x List.mem_cons_self)
      obtain ⟨hsorted, hlater⟩ := ih sound first.settled
        (fun y hy => hd y (List.mem_cons_of_mem _ hy)) (hc.tail hf)
      rw [turns, Outcome.trace_andThen hf, acked_append]
      rcases first.now with hnow | ⟨e, hnow, hmay, hnewer⟩ <;>
        rw [show acked tab (t.turn build x).trace = _ from hnow]
      · exact ⟨hsorted, fun e he => first.later e (hlater e he)⟩
      · refine ⟨List.pairwise_cons.mpr ⟨fun e' he => hnewer e' (hlater e' he), hsorted⟩,
          fun e' he => ?_⟩
        rcases List.mem_cons.mp he with rfl | he
        · exact hmay
        · exact first.later e' (hlater e' he)

end Tab

end TabHost
