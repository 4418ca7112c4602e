import TabHost.Proofs.Tab.Teardown

/-!
# The stages of a delete

An act either leaves a tab at its stage of life and makes no work, or moves it on
(`Seat.Progresses`): a destroy that is asked for queues the first pass of the delete, the first
pass queues the second one, and the second one, or the loss of the link of a live tab, deletes
the tab. A pass that is done at the wrong stage does nothing. So a tab never goes back
(`Seat.Progresses.stage_le`).
-/

set_option linter.unusedSectionVars false

namespace TabHost

/-- The stage of life of a tab that a pass of its delete is for. -/
def DeletePass.stage (d : DeletePass) : Lifecycle :=
  if d.ready then .awaitingSecondPass else .destroying

theorem DeletePass.isLive_stage (d : DeletePass) : d.stage.isLive = false := by
  unfold stage
  split <;> rfl

namespace Seat

variable {σ : Type} [Content σ] {s : Seat σ} {a : Act} {o : Outcome Effect (Seat σ)}

/-- How an act moves a tab on to its deletion, and the work that it makes. -/
inductive Progresses (s : Seat σ) (a : Act) (o : Outcome Effect (Seat σ)) : Prop
  | stays (calm : s.tab.state.isLive = true → a.asksDestroy = false ∧ a.losesLink = false)
      (pass : ∀ d, a = .pass d → s.tab.state ≠ d.stage)
      (state : o.state.tab.state = s.tab.state)
      (queue : o.state.shared.queue = s.shared.queue)
  /-- The destroy of a live tab is asked for. -/
  | asked (live : s.tab.state.isLive = true) (act : a.asksDestroy = true)
      (state : o.state.tab.state = .destroying)
      (queue : o.state.shared.queue = s.shared.queue.schedule { tab := s.tab.id })
  /-- The link of a live tab is lost. -/
  | lost (live : s.tab.state.isLive = true) (act : a.losesLink = true)
      (state : o.state.tab.state = .deleted)
      (queue : o.state.shared.queue = s.shared.queue)
  /-- The first pass of the delete. -/
  | bounced {d : DeletePass} (act : a = .pass d) (ready : d.ready = false)
      (before : s.tab.state = .destroying) (state : o.state.tab.state = .awaitingSecondPass)
      (queue : o.state.shared.queue = s.shared.queue.schedule d.second)
  /-- The second pass of the delete. -/
  | finished {d : DeletePass} (act : a = .pass d) (ready : d.ready = true)
      (before : s.tab.state = .awaitingSecondPass) (state : o.state.tab.state = .deleted)
      (queue : o.state.shared.queue = s.shared.queue)

theorem progresses_tearsDown (build : Build) (hl : s.tab.state.isLive = true)
    (hd : s.tab.contentDestroyed = false) (ha : a.tearsDown = true) :
    Progresses s a (act build a s) := by
  cases a with
  | request e =>
    obtain ⟨tab, channel, priority, request⟩ := e
    simp only [act, handle, hl, if_true, handleLive]
    cases request with
    | destroy =>
      rw [destroy_of_live build hl hd]
      exact .asked hl rfl rfl rfl
    | channelClosed =>
      rw [channelClosed_of_live hl hd]
      exact .lost hl rfl rfl rfl
    | _ => cases ha
  | destroy =>
    rw [act, destroy_of_live build hl hd]
    exact .asked hl rfl rfl rfl
  | drop =>
    rw [act, destroyWindow_of_live hd]
    exact .stays (fun _ => ⟨rfl, rfl⟩) (fun d h => by cases h) rfl rfl
  | _ => cases ha

theorem progresses_pass (build : Build) (d : DeletePass) (s : Seat σ) :
    Progresses s (.pass d) (act build (.pass d) s) := by
  simp only [act, runDelete]
  split
  · next hs hr => exact .bounced rfl hr hs rfl rfl
  · next hs hr =>
    refine .finished rfl hr hs ?_ ?_ <;> rw [(finishDelete_cases s).2]
  · next hb hf =>
    refine .stays (fun _ => ⟨rfl, rfl⟩) (fun d' heq hs => ?_) rfl rfl
    cases heq
    unfold DeletePass.stage at hs
    split at hs
    · next ready => exact hf hs ready
    · next waits => exact hb hs (by simpa using waits)

theorem Rests.progresses (h : Rests s a o) (dead : s.tab.state.isLive = false)
    (hp : ∀ d, a ≠ .pass d) : Progresses s a o := by
  have stays : o.state.tab.state = s.tab.state → o.state.shared.queue = s.shared.queue →
      Progresses s a o := fun state queue =>
    .stays (fun live => absurd (dead.symm.trans live) (by simp)) (fun d hd => absurd hd (hp d))
      state queue
  cases h with
  | still _ _ state => exact stays (by rw [state]) (by rw [state])
  | unlinked => exact stays rfl rfl
  | hungUp => exact stays rfl rfl
  | bounced => exact absurd rfl (hp _)
  | finished => exact absurd rfl (hp _)

/-- Whatever is done to a tab. -/
theorem progresses_act (build : Build) (a : Act) (h : s.tab.Sound) :
    Progresses s a (act build a s) := by
  by_cases hp : ∃ d, a = .pass d
  · obtain ⟨d, rfl⟩ := hp
    exact progresses_pass build d s
  · have hp : ∀ d, a ≠ .pass d := fun d hd => hp ⟨d, hd⟩
    have calm : a.tearsDown = false → a.asksDestroy = false ∧ a.losesLink = false := by
      intro ha
      have undropped : a ≠ .drop := by
        rintro rfl
        cases ha
      simpa [Act.tearsDown_eq undropped] using ha
    cases does_act build a h with
    | works _ ha hw =>
      exact .stays (fun _ => calm ha) (fun d hd => absurd hd (hp d)) hw.state hw.queue
    | hungUp _ ha _ heq =>
      rw [heq]
      exact .stays (fun _ => calm (by rw [ha]; rfl)) (fun d hd => absurd hd (hp d)) rfl rfl
    | tornDown live ha _ => exact progresses_tearsDown build live (h.live live).2 ha
    | rests dead hr => exact hr.progresses dead hp

/-- A tab never goes back. -/
theorem Progresses.stage_le (h : Progresses s a o) :
    s.tab.state.stage ≤ o.state.tab.state.stage := by
  have early : s.tab.state.isLive = true → s.tab.state.stage ≤ Lifecycle.active.stage := by
    cases s.tab.state <;> decide
  cases h with
  | stays _ _ state => exact Nat.le_of_eq (congrArg Lifecycle.stage state.symm)
  | asked live _ state =>
    rw [state]
    exact Nat.le_trans (early live) (by decide)
  | lost live _ state =>
    rw [state]
    exact Nat.le_trans (early live) (by decide)
  | bounced _ _ before state =>
    rw [before, state]
    decide
  | finished _ _ before state =>
    rw [before, state]
    decide

end Seat

end TabHost
