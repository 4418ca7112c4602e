import TabHost.Proofs.Render.Newest
import TabHost.Proofs.Tab.Marking

/-!
# Render requests in any order

A tab is due to be in the render state that its gate puts off, or else in the one that it is
in (`Tab.due`). A request makes it due to be in the newer one of that state and the one that
is asked for, whether it is stale, put off or carried out at once; blockers that come and go
change nothing of it (`Seat.awaits_act`). So after any acts it is due to be in the newest of
all, and is so when no blocker is left (`Seat.awaits_acts`).
-/

set_option linter.unusedSectionVars false

namespace TabHost

/-! ## Requests and blockers -/

/-- The render state that a request asks for. -/
def Request.render? : Request → Option PendingRender
  | .setRenderState enabled _ epoch => some { enabled := enabled, epoch := epoch }
  | .paintWhileInterrupting epoch _ => some { enabled := true, epoch := epoch }
  | _ => none

namespace Act

/-- The render state that an act asks for. -/
def render? : Act → Option PendingRender
  | .request e => e.request.render?
  | _ => none

/-- Whether an act asks for a render state, or adds a blocker or removes one. -/
def isRendering : Act → Bool
  | .addBlocker => true
  | .removeBlocker => true
  | a => a.render?.isSome

/-- The number of blockers after an act: none if one is removed that is not there, or if the
act adds the `2^32`th. -/
def blockersAfter? (blockers : Nat) : Act → Option Nat
  | .addBlocker => if blockers + 1 < UInt32.size then some (blockers + 1) else none
  | .removeBlocker => if blockers = 0 then none else some (blockers - 1)
  | _ => some blockers

/-- The number of blockers after some acts. -/
def outstanding? (blockers : Nat) (acts : List Act) : Option Nat :=
  acts.foldlM blockersAfter? blockers

end Act

variable {σ : Type} [Content σ]

/-! ## What a tab is due to be in -/

/-- The render state that a tab is due to be in, once nothing is put off any more. -/
def Tab.due (t : Tab σ) : PendingRender :=
  { enabled := (t.gate.render.map PendingRender.enabled).getD (Content.isVisible t.content)
    epoch := t.epoch }

namespace Seat

/-- A live tab with a surface and so many blockers, that is due to be in a render state. What
is put off waits for blockers. -/
structure Awaits (own : SurfaceId) (n : Nat) (r : PendingRender) (s : Seat σ) : Prop where
  live : s.tab.state.isLive = true
  ipcOpen : s.tab.ipcOpen = true
  surface : s.tab.surface = some own
  blockers : s.tab.gate.blockers.toNat = n
  prompt : n = 0 → s.tab.gate.render = none
  due : s.tab.due = r

variable {s : Seat σ} {surface : SurfaceId} {blockers : Nat} {due : PendingRender}

/-- Without blockers, a tab is in the render state that it is due to be in. -/
theorem Awaits.reached (h : Awaits surface 0 due s) :
    s.tab.epoch = due.epoch ∧ Content.isVisible s.tab.content = due.enabled := by
  have hdue := h.due
  rw [Tab.due, h.prompt rfl] at hdue
  rw [← hdue]
  exact ⟨rfl, rfl⟩

/-! ## Acts -/

/-- A tab that was brought into a render state is due to be in it. -/
theorem awaits_applyRender [Content.ShowsAsTold σ] {enabled force : Bool} {epoch : Epoch}
    (h : Awaits surface blockers due s) (hnone : s.tab.gate.render = none)
    (hepoch : s.tab.epoch = epoch) :
    (applyRender enabled force epoch s).fault = none ∧
      Awaits surface blockers { enabled, epoch } (applyRender enabled force epoch s).state := by
  obtain ⟨fault, content, tab⟩ := applyRender_spec enabled force epoch s
  have visible : Content.isVisible (applyRender enabled force epoch s).state.tab.content =
      enabled :=
    (renders_applyRender enabled force epoch s).isVisible
      (notifies_applyRender enabled force epoch s)
  refine ⟨fault, ?_⟩
  rw [tab] at visible
  refine ⟨?_, ?_, ?_, ?_, ?_, ?_⟩ <;> rw [tab]
  · exact h.live
  · exact h.ipcOpen
  · exact h.surface
  · exact h.blockers
  · exact h.prompt
  · rw [Tab.due, hnone]
    exact congrArg₂ PendingRender.mk visible hepoch

/-- A request leaves a tab due to be in the newer one of the state that it was due to be in and
the one that is asked for: the request is stale, or put off, or carried out at once. -/
theorem awaits_requestRender [Content.ShowsAsTold σ] (enabled force : Bool) (epoch : Epoch)
    (h : Awaits surface blockers due s) :
    (requestRender enabled force epoch s).fault = none ∧
      Awaits surface blockers (due.newer { enabled, epoch })
        (requestRender enabled force epoch s).state := by
  have hdue : due.epoch = s.tab.epoch := congrArg PendingRender.epoch h.due.symm
  unfold PendingRender.newer
  rw [hdue]
  rcases requestRender_cases enabled force epoch s with ⟨hold, heq⟩ | ⟨hnew, hb, heq⟩ |
    ⟨hnew, hb, heq⟩ <;> rw [heq]
  · rw [if_neg hold]
    exact ⟨rfl, h⟩
  · rw [if_pos hnew]
    refine ⟨rfl, h.live, h.ipcOpen, h.surface, h.blockers, ?_, rfl⟩
    intro hzero
    have unblocked : s.tab.gate.blockers = 0 := UInt32.toNat.inj (h.blockers.trans hzero)
    rw [Gate.isBlocked_eq_false_iff.mpr unblocked] at hb
    cases hb
  · rw [if_pos hnew]
    have hzero : blockers = 0 := by
      rw [← h.blockers, Gate.isBlocked_eq_false_iff.mp hb]
      rfl
    have accepted : Awaits surface blockers { due with epoch := epoch }
        { s with tab := { s.tab with epoch := epoch } } :=
      ⟨h.live, h.ipcOpen, h.surface, h.blockers, h.prompt, by rw [← h.due]; rfl⟩
    exact awaits_applyRender accepted (h.prompt hzero) rfl

theorem awaits_addBlocker {build : Build} (h : Awaits surface blockers due s)
    (room : blockers + 1 < UInt32.size) :
    (addBlocker build s).fault = none ∧
      Awaits surface (blockers + 1) due (addBlocker build s).state := by
  rw [← h.blockers] at room ⊢
  obtain ⟨added, count⟩ := Gate.addBlocker_of_room build room
  rw [addBlocker, if_pos h.live, added]
  exact ⟨rfl, h.live, h.ipcOpen, h.surface, count, fun hzero => by omega, h.due⟩

/-- When the last blocker is gone, a tab is brought into the state that it was due to be in. -/
theorem awaits_replay [Content.ShowsAsTold σ] (h : Awaits surface 1 due s) :
    (replay { active := s.tab.gate.active, render := s.tab.gate.render } (s.setGate {})).fault =
        none ∧
      Awaits surface 0 due
        (replay { active := s.tab.gate.active, render := s.tab.gate.render }
          (s.setGate {})).state := by
  obtain ⟨fault, ⟨content, tab⟩, carried⟩ :=
    replay_cases s.tab.gate.active s.tab.gate.render (s.setGate {})
  have notifies := notifies_replay
    { active := s.tab.gate.active, render := s.tab.gate.render } (s.setGate {})
  have epoch : s.tab.epoch = due.epoch := congrArg PendingRender.epoch h.due
  have visible : Content.isVisible content = due.enabled := by
    rw [← h.due, Tab.due]
    rcases carried with ⟨hnone, -, told⟩ | ⟨r, hsome, renders⟩
    · have same := notifies.isVisible
      rw [told, tab] at same
      rw [hnone]
      exact same
    · have changed := renders.isVisible notifies
      rw [tab] at changed
      rw [hsome]
      exact changed
  refine ⟨fault, ?_, ?_, ?_, ?_, ?_, ?_⟩ <;> rw [tab]
  · exact h.live
  · exact h.ipcOpen
  · exact h.surface
  · rfl
  · exact fun _ => rfl
  · exact congrArg₂ PendingRender.mk visible epoch

theorem awaits_removeBlocker [Content.ShowsAsTold σ] {build : Build}
    (h : Awaits surface (blockers + 1) due s) :
    (removeBlocker build s).fault = none ∧
      Awaits surface blockers due (removeBlocker build s).state := by
  have count := h.blockers
  rcases removeBlocker_cases build h.live with ⟨hzero, -, -⟩ | ⟨hmore, heq⟩ | ⟨hone, heq⟩
  · rw [hzero] at count
    cases count
  · have fewer : (s.tab.gate.blockers - 1).toNat = blockers := by
      rw [UInt32.toNat_sub_of_le _ _ (UInt32.le_of_lt hmore), count]
      rfl
    have hmany : blockers ≠ 0 := by
      have hmore' : 1 < s.tab.gate.blockers.toNat := UInt32.lt_iff_toNat_lt.mp hmore
      omega
    rw [heq]
    exact ⟨rfl, h.live, h.ipcOpen, h.surface, fewer, fun hzero => absurd hzero hmany, h.due⟩
  · have hzero : blockers = 0 := by
      rw [hone] at count
      exact (Nat.succ.inj count).symm
    subst hzero
    rw [heq]
    exact awaits_replay h

/-- After an act, a tab is due to be in the newer one of the state that it was due to be in
and the one that is asked for. -/
theorem awaits_act [Content.ShowsAsTold σ] (build : Build) {a : Act} {after : Nat}
    (h : Awaits surface blockers due s) (ha : a.isRendering = true)
    (hn : a.blockersAfter? blockers = some after) :
    (act build a s).fault = none ∧
      Awaits surface after (a.render?.toList.foldl PendingRender.newer due)
        (act build a s).state := by
  cases a with
  | addBlocker =>
    rw [Act.blockersAfter?] at hn
    split at hn
    · next room =>
      cases hn
      exact awaits_addBlocker h room
    · cases hn
  | removeBlocker =>
    cases blockers with
    | zero => cases hn
    | succ n =>
      cases hn
      exact awaits_removeBlocker h
  | request e =>
    obtain ⟨tab, channel, priority, request⟩ := e
    cases hn
    simp only [act, handle, h.live, if_true, handleLive]
    cases request with
    | setRenderState enabled force epoch => exact awaits_requestRender enabled force epoch h
    | paintWhileInterrupting epoch force =>
      have paints : paintWhileInterrupting epoch force s = requestRender true force epoch s := by
        unfold paintWhileInterrupting
        rw [h.ipcOpen, h.surface]
        rfl
      dsimp only
      rw [paints]
      exact awaits_requestRender true force epoch h
    | _ => cases ha
  | _ => cases ha

/-! ## Sequences of acts -/

/-- The surface of a tab can be looked up, and is marked as content stands. -/
structure Displays (own : SurfaceId) (s : Seat σ) : Prop where
  sound : s.tab.Sound
  marked : s.Marked
  found : (s.shared.surfaces.lookup own).isSome = true

/-- A surface that a tab displays is visible just as content is. -/
theorem Displays.isVisible (h : Displays surface s) (hs : s.tab.surface = some surface) :
    s.shared.surfaces.isVisible surface = Content.isVisible s.tab.content := by
  obtain ⟨handle, hl⟩ := Option.isSome_iff_exists.mp h.found
  exact Surfaces.isVisible_of_mark? (h.marked surface hs) hl

/-- A tab that keeps its surface goes on to display it. -/
theorem displays_act [Content.ShowsAsTold σ] (build : Build) {a : Act}
    (h : Displays surface s) (hd : a ≠ .drop) (hf : (act build a s).fault = none)
    (before : s.tab.surface = some surface)
    (after : (act build a s).state.tab.surface = some surface) :
    Displays surface (act build a s).state := by
  refine ⟨sound_act build h.sound hd, marked_act build h.sound h.marked hf, ?_⟩
  rw [(repaints_act build a h.sound).lookup before after]
  exact h.found

/-- What becomes of a tab in some acts, one after the other. -/
def acts (build : Build) : List Act → Operation σ
  | [], s => .ok s
  | a :: rest, s => (act build a s).andThen (acts build rest)

/-- After some acts, a tab is due to be in the newest of the state that it was due to be in and
those that are asked for. -/
theorem awaits_acts [Content.ShowsAsTold σ] (build : Build) {as : List Act} {after : Nat}
    (h : Awaits surface blockers due s) (shown : Displays surface s)
    (ha : ∀ a ∈ as, a.isRendering = true) (hn : Act.outstanding? blockers as = some after) :
    (acts build as s).fault = none ∧
      Awaits surface after ((as.filterMap Act.render?).foldl PendingRender.newer due)
        (acts build as s).state ∧
      Displays surface (acts build as s).state := by
  induction as generalizing s blockers due with
  | nil =>
    cases hn
    exact ⟨rfl, h, shown⟩
  | cons a rest ih =>
    rw [Act.outstanding?, List.foldlM_cons] at hn
    obtain ⟨next, hnext, hrest⟩ := Option.bind_eq_some_iff.mp hn
    have rendering := ha a List.mem_cons_self
    obtain ⟨first, awaits⟩ := awaits_act build h rendering hnext
    have undropped : a ≠ .drop := by
      rintro rfl
      cases rendering
    have displays := displays_act build shown undropped first h.surface awaits.surface
    have fold : ((a :: rest).filterMap Act.render?).foldl PendingRender.newer due =
        (rest.filterMap Act.render?).foldl PendingRender.newer
          (a.render?.toList.foldl PendingRender.newer due) := by
      rw [List.filterMap_cons]
      cases a.render? <;> rfl
    rw [acts, Outcome.fault_andThen first, Outcome.state_andThen first, fold]
    exact ih awaits displays (fun b hb => ha b (List.mem_cons_of_mem _ hb)) hrest

end Seat

end TabHost
