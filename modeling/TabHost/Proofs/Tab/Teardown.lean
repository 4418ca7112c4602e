import TabHost.Proofs.Tab.Turn

/-!
# A tab whose window is gone

A live tab has its window, and content was not told otherwise (`Tab.Sound.live`). The three
acts that tear a live tab down take its input, its gate and its surface away in one go and
tell content so, and do nothing else to content (`Seat.TearsDown`).

From then on nothing that is done to the tab reaches content, its rendering, its gate or its
surfaces (`Seat.Rests`). Only its stage of life goes on, and the second pass of its delete
may send the farewell, after which nothing is sent (`Tab.idles_turns`).
-/

set_option linter.unusedSectionVars false

namespace TabHost

variable {σ : Type} [Content σ]

/-! ## The window -/

namespace Tab

/-- Nothing is left of the window of a tab, and content was told. -/
structure IsTornDown (t : Tab σ) : Prop where
  moves : t.moves = none
  wheel : t.wheel = {}
  keys : t.keys = {}
  gate : t.gate = {}
  surface : t.surface = none
  handle : t.handle = none
  contentDestroyed : t.contentDestroyed = true

/-- A live tab has its window, and any other has lost it. -/
structure Sound (t : Tab σ) : Prop where
  live : t.state.isLive = true → t.moves.isSome = true ∧ t.contentDestroyed = false
  tornDown : t.state.isLive = false → t.IsTornDown

/-- The tab without its window, once content was told. -/
def closed (t : Tab σ) : Tab σ :=
  { t with
    content := Content.notify .destroy t.content
    contentDestroyed := true
    surface := none
    handle := none
    moves := none
    wheel := {}
    keys := {}
    gate := {} }

end Tab

namespace Seat

/-- The seat of a tab without its window. -/
def closed (s : Seat σ) : Seat σ :=
  { tab := s.tab.closed
    shared :=
      { s.shared with surfaces := s.shared.surfaces.dropAny s.tab.surface s.tab.handle } }

theorem destroyWindow_of_live {s : Seat σ} (h : s.tab.contentDestroyed = false) :
    destroyWindow s = .emit (.call s.tab.id (.notice .destroy)) s.closed := by
  have hc : s.clearWindow.tab.contentDestroyed = false := h
  rw [destroyWindow, destroyContent, if_neg (by simp [hc])]
  rfl

theorem destroyWindow_of_tornDown {s : Seat σ} (h : s.tab.IsTornDown) :
    destroyWindow s = .ok s := by
  have same : s.clearWindow = s := by
    have hs : s.shared.surfaces.dropAny s.tab.surface s.tab.handle = s.shared.surfaces := by
      rw [h.surface, h.handle]
      rfl
    rw [clearWindow, hs, ← h.surface, ← h.handle, ← h.moves, ← h.wheel, ← h.keys, ← h.gate]
  rw [destroyWindow, same, destroyContent, if_pos h.contentDestroyed]

/-! ## Tearing down -/

/-- What an act does that takes the window of a live tab away and tells content, and does
no more to either. -/
structure TearsDown (a : Act) (s : Seat σ) (o : Outcome Effect (Seat σ)) : Prop where
  tab : o.state.tab =
    { s.tab.closed with
      state := a.stageAfter s.tab.state
      ipcOpen := s.tab.ipcOpen && !a.losesLink }
  surfaces : o.state.shared.surfaces = s.shared.surfaces.dropAny s.tab.surface s.tab.handle
  trace : o.trace = [.call s.tab.id (.notice .destroy)]
  fault : o.fault = none

theorem destroy_of_live (build : Build) {s : Seat σ} (hl : s.tab.state.isLive = true)
    (hd : s.tab.contentDestroyed = false) :
    destroy build s =
      .emit (.call s.tab.id (.notice .destroy))
        ((s.closed.setState .destroying).onQueue (·.schedule { tab := s.tab.id })) := by
  rw [destroy, if_pos hl, destroyWindow_of_live hd]
  rfl

theorem channelClosed_of_live {s : Seat σ} (hl : s.tab.state.isLive = true)
    (hd : s.tab.contentDestroyed = false) :
    channelClosed s =
      .emit (.call s.tab.id (.notice .destroy))
        ({ s.closed with tab := { s.closed.tab with ipcOpen := false } }.setState .deleted) := by
  have hc : ({ s with tab := { s.tab with ipcOpen := false } } : Seat σ).tab.contentDestroyed =
      false := hd
  rw [channelClosed, destroyWindow_of_live hc]
  simp only [Outcome.map, Outcome.emit, closed, Tab.closed, hl, if_true, setState]

theorem tearsDown_act (build : Build) {a : Act} {s : Seat σ} (hl : s.tab.state.isLive = true)
    (hd : s.tab.contentDestroyed = false) (ha : a.tearsDown = true) :
    TearsDown a s (act build a s) := by
  have keep : (s.tab.ipcOpen && !false) = s.tab.ipcOpen := by simp
  have lose : (s.tab.ipcOpen && !true) = false := by simp
  cases a with
  | request e =>
    obtain ⟨tab, channel, priority, request⟩ := e
    simp only [act, handle, hl, if_true, handleLive]
    cases request with
    | destroy =>
      simp only [destroy_of_live build hl hd]
      refine ⟨?_, rfl, rfl, rfl⟩
      simp only [Act.losesLink, keep]
      rfl
    | channelClosed =>
      simp only [channelClosed_of_live hl hd]
      refine ⟨?_, rfl, rfl, rfl⟩
      simp only [Act.losesLink, lose]
      rfl
    | _ => simp [Act.tearsDown, Act.asksDestroy, Act.losesLink] at ha
  | destroy =>
    simp only [act, destroy_of_live build hl hd]
    refine ⟨?_, rfl, rfl, rfl⟩
    simp only [Act.losesLink, keep]
    rfl
  | drop =>
    simp only [act, destroyWindow_of_live hd]
    refine ⟨?_, rfl, rfl, rfl⟩
    simp only [Act.losesLink, keep]
    rfl
  | _ => simp [Act.tearsDown, Act.asksDestroy, Act.losesLink] at ha

/-! ## Once the window is gone -/

/-- What an act comes to once the window of the tab is gone. -/
inductive Rests (s : Seat σ) : Act → Outcome Effect (Seat σ) → Prop
  /-- Nothing. -/
  | still {a o} (link : a.losesLink = false)
      (pass : ∀ d, a = .pass d → d.ready = true → s.tab.state ≠ .awaitingSecondPass)
      (state : o.state = s) (trace : o.trace = []) : Rests s a o
  /-- The link is taken to be lost. -/
  | unlinked {a} (link : a.losesLink = true) :
      Rests s a (.ok { s with tab := { s.tab with ipcOpen := false } })
  /-- The other end of the tab's own link is gone. -/
  | hungUp (own : (s.tab.link.any fun l => l.route = .own) = true) :
      Rests s .hangUp (.ok { s with tab := s.tab.hangUp })
  /-- The first pass of the delete. -/
  | bounced {d} (state : s.tab.state = .destroying) (ready : d.ready = false) :
      Rests s (.pass d) (.ok ((s.setState .awaitingSecondPass).onQueue (·.schedule d.second)))
  /-- The second pass of the delete. -/
  | finished {d} (state : s.tab.state = .awaitingSecondPass) (ready : d.ready = true) :
      Rests s (.pass d) (finishDelete s)

theorem rests_request (build : Build) {e : Envelope} {s : Seat σ}
    (hl : s.tab.state.isLive = false) (h : s.tab.IsTornDown) :
    Rests s (.request e) (act build (.request e) s) := by
  obtain ⟨tab, channel, priority, request⟩ := e
  have other : ∀ {r : Request}, handleDying build ⟨tab, channel, priority, r⟩ s =
        .violation build s.tab.id (.unexpected r.name) s ∨
      handleDying build ⟨tab, channel, priority, r⟩ s = .ok s →
      (Act.request ⟨tab, channel, priority, r⟩).losesLink = false →
      Rests s (.request ⟨tab, channel, priority, r⟩)
        (handleDying build ⟨tab, channel, priority, r⟩ s) := by
    intro r ho hr
    rcases ho with ho | ho <;> rw [ho]
    · exact .still hr (by simp) (by simp) (by simp)
    · exact .still hr (by simp) rfl rfl
  simp only [act, handle, hl, Bool.false_eq_true, if_false]
  cases request with
  | destroy =>
    have heq : handleDying build ⟨tab, channel, priority, .destroy⟩ s =
        .violation build s.tab.id .destroyedTwice s := by
      simp [handleDying, destroy, hl]
    rw [heq]
    exact .still rfl (by simp) (by simp) (by simp)
  | channelClosed =>
    have gone : ({ s with tab := { s.tab with ipcOpen := false } } : Seat σ).tab.IsTornDown :=
      ⟨h.moves, h.wheel, h.keys, h.gate, h.surface, h.handle, h.contentDestroyed⟩
    have heq : handleDying build ⟨tab, channel, priority, .channelClosed⟩ s =
        .ok { s with tab := { s.tab with ipcOpen := false } } := by
      simp [handleDying, channelClosed, destroyWindow_of_tornDown gone, Outcome.map, Outcome.ok,
        hl]
    rw [heq]
    exact .unlinked rfl
  | _ =>
    refine other ?_ rfl
    cases hs : s.tab.state <;> simp [handleDying, hs]

theorem rests_act (build : Build) (a : Act) {s : Seat σ} (hl : s.tab.state.isLive = false)
    (h : s.tab.IsTornDown) : Rests s a (act build a s) := by
  have still : ∀ {a : Act}, a.losesLink = false → (∀ d, a ≠ .pass d) → act build a s = .ok s →
      Rests s a (act build a s) := by
    intro a ha hp heq
    rw [heq]
    exact .still ha (fun d hd => absurd hd (hp d)) rfl rfl
  cases a with
  | request e => exact rests_request build hl h
  | flush => exact still rfl (by simp) (by simp [act, flushInput, hl])
  | addBlocker => exact still rfl (by simp) (by simp [act, addBlocker, hl])
  | removeBlocker => exact still rfl (by simp) (by simp [act, removeBlocker, hl])
  | destroy =>
    have heq : act build .destroy s = .violation build s.tab.id .destroyedTwice s := by
      simp [act, destroy, hl]
    rw [heq]
    exact .still rfl (by simp) (by simp) (by simp)
  | pass d =>
    simp only [act, runDelete]
    split
    · next hs hd => exact .bounced hs hd
    · next hs hd => exact .finished hs hd
    · next hb hf => exact .still rfl (fun d' hd hr hs => hf hs (by cases hd; exact hr)) rfl rfl
  | push e =>
    refine still rfl (by simp) ?_
    have hm := h.moves
    simp only [act, Tab.push, hm, Option.map_none]
    rw [← hm]
  | hangUp =>
    simp only [act, hangUp]
    split
    · next ho => exact .hungUp ho
    · exact .still rfl (by simp) rfl rfl
  | drop => exact still rfl (by simp) (destroyWindow_of_tornDown h)

/-- The tab says farewell if its link is open, and is deleted in any case. -/
theorem finishDelete_cases (s : Seat σ) :
    ((finishDelete s).trace = [] ∨ ∃ l, s.tab.ipcOpen = true ∧ s.tab.link = some l ∧
      (finishDelete s).trace = [.sent l.route { tab := l.tab, reply := .channelClose }]) ∧
    (finishDelete s).state =
      { s with tab := { s.tab with ipcOpen := false, link := none, state := .deleted } } := by
  unfold finishDelete send
  split
  · next hipc =>
    split
    · exact ⟨Or.inl rfl, rfl⟩
    · next l hl =>
      split
      · exact ⟨Or.inl rfl, rfl⟩
      · next o l' hn =>
        unfold ParentLink.send? at hn
        split at hn
        · cases hn
          exact ⟨Or.inr ⟨l, hipc, hl, rfl⟩, rfl⟩
        · cases hn
  · exact ⟨Or.inl rfl, rfl⟩

/-! ## Whatever is done to a tab -/

/-- What an act does to a tab, by what the tab is at and what the act asks. -/
inductive Does (s : Seat σ) (a : Act) (o : Outcome Effect (Seat σ)) : Prop
  | works (live : s.tab.state.isLive = true) (act : a.tearsDown = false) (h : WorksOn s o)
  | hungUp (live : s.tab.state.isLive = true) (act : a = .hangUp)
      (own : (s.tab.link.any fun l => l.route = .own) = true)
      (h : o = .ok { s with tab := s.tab.hangUp })
  | tornDown (live : s.tab.state.isLive = true) (act : a.tearsDown = true) (h : TearsDown a s o)
  | rests (live : s.tab.state.isLive = false) (h : Rests s a o)

theorem does_act (build : Build) (a : Act) {s : Seat σ} (h : s.tab.Sound) :
    Does s a (act build a s) := by
  cases hl : s.tab.state.isLive with
  | false => exact .rests hl (rests_act build a hl (h.tornDown hl))
  | true =>
    cases ha : a.tearsDown with
    | true => exact .tornDown hl ha (tearsDown_act build hl (h.live hl).2 ha)
    | false =>
      cases hh : a.isHangUp with
      | false => exact .works hl ha (works_act build hl ha hh)
      | true =>
        cases a with
        | hangUp =>
          by_cases ho : (s.tab.link.any fun l => l.route = .own) = true
          · exact .hungUp hl rfl ho (by rw [act, hangUp, if_pos ho])
          · refine .works hl rfl ?_
            rw [act, hangUp, if_neg ho]
            exact .ok s
        | _ => cases hh

/-- What may still happen to a tab once its window is gone. -/
structure Idles (s : Seat σ) (o : Outcome Effect (Seat σ)) : Prop where
  state : o.state.tab.state.isLive = false
  tab : ∃ stage ipcOpen link, o.state.tab =
    { s.tab with state := stage, ipcOpen := ipcOpen, link := link }
  link : ∀ l, o.state.tab.link = some l →
    ∃ l', s.tab.link = some l' ∧ l.tab = l'.tab ∧ l.route = l'.route
  surfaces : o.state.shared.surfaces = s.shared.surfaces
  trace : o.trace = [] ∨ ∃ l, s.tab.ipcOpen = true ∧ s.tab.link = some l ∧
    o.trace = [.sent l.route { tab := l.tab, reply := .channelClose }] ∧
    o.state.tab.ipcOpen = false
  ipcOpen : s.tab.ipcOpen = false → o.state.tab.ipcOpen = false

theorem Rests.idles {s : Seat σ} {a : Act} {o : Outcome Effect (Seat σ)} (h : Rests s a o)
    (hl : s.tab.state.isLive = false) : Idles s o := by
  have same : ∀ l, s.tab.link = some l → ∃ l', s.tab.link = some l' ∧ l.tab = l'.tab ∧
      l.route = l'.route := fun l hs => ⟨l, hs, rfl, rfl⟩
  cases h with
  | still _ _ state trace =>
    rw [← state] at hl same ⊢
    exact ⟨hl, ⟨_, _, _, rfl⟩, same, rfl, Or.inl trace, id⟩
  | unlinked => exact ⟨hl, ⟨_, _, _, rfl⟩, same, rfl, Or.inl rfl, fun _ => rfl⟩
  | hungUp =>
    refine ⟨hl, ⟨_, _, _, rfl⟩, fun l hs => ?_, rfl, Or.inl rfl, id⟩
    obtain ⟨l', hl', rfl⟩ := Option.map_eq_some_iff.mp hs
    exact ⟨l', hl', rfl, rfl⟩
  | bounced => exact ⟨rfl, ⟨_, _, _, rfl⟩, same, rfl, Or.inl rfl, id⟩
  | finished =>
    obtain ⟨ht, hs⟩ := finishDelete_cases s
    refine ⟨by rw [hs]; rfl, ⟨.deleted, false, none, by rw [hs]⟩, fun l h => ?_, by rw [hs], ?_,
      fun _ => by rw [hs]⟩
    · rw [hs] at h
      cases h
    · rcases ht with ht | ⟨l, hipc, hlink, ht⟩
      · exact Or.inl ht
      · exact Or.inr ⟨l, hipc, hlink, ht, by rw [hs]⟩

theorem Idles.callsOf {s : Seat σ} {o : Outcome Effect (Seat σ)} (h : Idles s o) (tab : TabId) :
    callsOf tab o.trace = [] := by
  rcases h.trace with ht | ⟨l, -, -, ht, -⟩ <;> rw [ht] <;> rfl

/-- A tab stays sound, whatever is done to it short of dropping it. -/
theorem sound_act (build : Build) {a : Act} {s : Seat σ} (h : s.tab.Sound) (hd : a ≠ .drop) :
    (act build a s).state.tab.Sound := by
  cases does_act build a h with
  | works live _ hw =>
    have hdestroyed : (act build a s).state.tab.contentDestroyed = s.tab.contentDestroyed :=
      congrArg Standing.contentDestroyed hw.standing
    refine ⟨fun _ => ?_, fun hn => ?_⟩
    · rw [hw.isSome, hdestroyed]
      exact h.live live
    · rw [hw.state, live] at hn
      cases hn
  | hungUp live _ _ heq =>
    rw [heq]
    exact ⟨fun _ => h.live live, fun hn => absurd (live.symm.trans hn) (by simp)⟩
  | tornDown live ha ht =>
    rw [ht.tab]
    refine ⟨fun hn => ?_, fun _ => ⟨rfl, rfl, rfl, rfl, rfl, rfl, rfl⟩⟩
    have dead := Act.isLive_stageAfter ha hd s.tab.state
    exact absurd (dead.symm.trans hn) (by simp)
  | rests live hr =>
    have gone := h.tornDown live
    have idles := hr.idles live
    obtain ⟨stage, ipcOpen, link, heq⟩ := idles.tab
    refine ⟨fun hn => absurd (idles.state.symm.trans hn) (by simp), fun _ => ?_⟩
    rw [heq]
    exact ⟨gone.moves, gone.wheel, gone.keys, gone.gate, gone.surface, gone.handle,
      gone.contentDestroyed⟩

end Seat

/-! ## Names -/

namespace Tab

/-- A tab goes by its id towards its parent, too. -/
structure GoesBy (tab : TabId) (t : Tab σ) : Prop where
  id : t.id = tab
  link : ∀ l, t.link = some l → l.tab = tab

end Tab

namespace Seat

/-- Whatever is done to a tab, it keeps its name, and what comes of it comes of that tab. -/
theorem own_act (build : Build) (a : Act) {s : Seat σ} {tab : TabId} (h : s.tab.Sound)
    (hg : s.tab.GoesBy tab) :
    (act build a s).state.tab.GoesBy tab ∧
      ∀ e ∈ (act build a s).trace, e.isOf tab = true := by
  cases does_act build a h with
  | works _ _ hw =>
    have hlink : (act build a s).state.tab.link = s.tab.link :=
      congrArg Standing.link hw.standing
    refine ⟨⟨hw.id.trans hg.id, fun l hl => hg.link l (hlink ▸ hl)⟩, fun e he => ?_⟩
    cases hw.effects e he with
    | call => simp [Effect.isOf, hg.id]
    | sent _ link => simp [Effect.isOf, hg.link _ link]
  | hungUp _ _ _ heq =>
    rw [heq]
    refine ⟨⟨hg.id, fun l hl => ?_⟩, fun e he => absurd he List.not_mem_nil⟩
    obtain ⟨l', hl', rfl⟩ := Option.map_eq_some_iff.mp hl
    exact hg.link l' hl'
  | tornDown _ _ ht =>
    rw [ht.tab, ht.trace]
    refine ⟨⟨hg.id, hg.link⟩, fun e he => ?_⟩
    rw [List.mem_singleton.mp he]
    simp [Effect.isOf, hg.id]
  | rests live hr =>
    have idles := hr.idles live
    obtain ⟨stage, ipcOpen, link, heq⟩ := idles.tab
    refine ⟨⟨by rw [heq]; exact hg.id, fun l hl => ?_⟩, fun e he => ?_⟩
    · obtain ⟨l', hl', htab, -⟩ := idles.link l hl
      exact htab.trans (hg.link l' hl')
    · rcases idles.trace with ht | ⟨l, -, hl, ht, -⟩
      · rw [ht] at he
        cases he
      · rw [ht] at he
        rw [List.mem_singleton.mp he]
        simp [Effect.isOf, hg.link l hl]

end Seat

/-! ## Turns of a tab whose window is gone -/

namespace Tab

/-- What may still come of a tab once its window is gone, in however many turns. -/
structure Idles (tab : TabId) (t : Tab σ) (o : Outcome Effect (Tab σ)) : Prop where
  state : o.state.state.isLive = false
  rest : ∃ stage ipcOpen link, o.state = { t with state := stage, ipcOpen := ipcOpen, link := link }
  trace : o.trace = [] ∨ t.ipcOpen = true ∧ o.state.ipcOpen = false ∧
    ∃ route, o.trace = [.sent route { tab := tab, reply := .channelClose }]
  ipcOpen : t.ipcOpen = false → o.state.ipcOpen = false

theorem IsTornDown.of_eq {t u : Tab σ} (h : t.IsTornDown)
    (heq : ∃ stage ipcOpen link, u = { t with state := stage, ipcOpen := ipcOpen, link := link }) :
    u.IsTornDown := by
  obtain ⟨stage, ipcOpen, link, rfl⟩ := heq
  exact ⟨h.moves, h.wheel, h.keys, h.gate, h.surface, h.handle, h.contentDestroyed⟩

theorem idles_turn (build : Build) (x : Turn) {tab : TabId} {t : Tab σ}
    (hl : t.state.isLive = false) (hd : t.IsTornDown) (hg : t.GoesBy tab) :
    t.Idles tab (t.turn build x) := by
  have idles := (Seat.rests_act build x.act (s := t.seat x) hl hd).idles hl
  refine ⟨idles.state, idles.tab, ?_, idles.ipcOpen⟩
  rcases idles.trace with ht | ⟨l, hipc, hlink, ht, hopen⟩
  · exact Or.inl ht
  · exact Or.inr ⟨hipc, hopen, l.route, by rw [← hg.link l hlink]; exact ht⟩

/-- Whatever turns a tab takes once its window is gone: it may say farewell once, and
nothing else comes of it. -/
theorem idles_turns (build : Build) (xs : List Turn) {tab : TabId} {t : Tab σ}
    (hl : t.state.isLive = false) (hd : t.IsTornDown) (hg : t.GoesBy tab) :
    t.Idles tab (t.turns build xs) := by
  induction xs generalizing t with
  | nil => exact ⟨hl, ⟨_, _, _, rfl⟩, Or.inl rfl, fun h => h⟩
  | cons x xs ih =>
    have first := idles_turn build x hl hd hg
    cases hf : (t.turn build x).fault with
    | some f =>
      rw [turns, Outcome.andThen_of_fault hf]
      exact first
    | none =>
      have hg' := (Seat.own_act build x.act (s := t.seat x)
        ⟨fun h => absurd (hl.symm.trans h) (by simp), fun _ => hd⟩ hg).1
      have rest := ih first.state (hd.of_eq first.rest) hg'
      rw [turns]
      refine ⟨?_, ?_, ?_, fun h => ?_⟩
      · rw [Outcome.state_andThen hf]
        exact rest.state
      · obtain ⟨stage, ipcOpen, link, h⟩ := rest.rest
        obtain ⟨stage', ipcOpen', link', h'⟩ := first.rest
        exact ⟨stage, ipcOpen, link, by rw [Outcome.state_andThen hf, h, h']⟩
      · rw [Outcome.trace_andThen hf, Outcome.state_andThen hf]
        -- once the farewell is said, the link is not taken to be open any more
        rcases first.trace with ht | ⟨hipc, hclosed, route, ht⟩
        · rw [ht, List.nil_append]
          refine rest.trace.imp_right ?_
          rintro ⟨hopen, hclosed, hsent⟩
          refine ⟨?_, hclosed, hsent⟩
          cases hipc : t.ipcOpen with
          | true => rfl
          | false => rw [first.ipcOpen hipc] at hopen; cases hopen
        · rcases rest.trace with ht' | ⟨hopen, -⟩
          · exact Or.inr ⟨hipc, rest.ipcOpen hclosed, route, by rw [ht, ht']; rfl⟩
          · rw [hclosed] at hopen
            cases hopen
      · rw [Outcome.state_andThen hf]
        exact rest.ipcOpen (first.ipcOpen h)

/-- Whatever turns a tab takes once its window is gone, content is not called any more. -/
theorem callsOf_turns_of_tornDown (build : Build) (xs : List Turn) (tab : TabId) {t : Tab σ}
    (hl : t.state.isLive = false) (hd : t.IsTornDown) :
    callsOf tab (t.turns build xs).trace = [] := by
  induction xs generalizing t with
  | nil => rfl
  | cons x xs ih =>
    have idles := (Seat.rests_act build x.act (s := t.seat x) hl hd).idles hl
    cases hf : (t.turn build x).fault with
    | some f =>
      rw [turns, Outcome.andThen_of_fault hf]
      exact idles.callsOf tab
    | none =>
      have rest : callsOf tab ((t.turn build x).state.turns build xs).trace = [] :=
        ih idles.state (hd.of_eq idles.tab)
      rw [turns, Outcome.trace_andThen hf, callsOf_append, rest, List.append_nil]
      exact idles.callsOf tab

/-- A tab stays sound and keeps its name, whatever turns it takes short of being dropped. -/
theorem sound_turns (build : Build) (xs : List Turn) {tab : TabId} {t : Tab σ} (h : t.Sound)
    (hg : t.GoesBy tab) (hd : ∀ x ∈ xs, x.act ≠ .drop) :
    (t.turns build xs).state.Sound ∧ (t.turns build xs).state.GoesBy tab := by
  induction xs generalizing t with
  | nil => exact ⟨h, hg⟩
  | cons x xs ih =>
    have sound := Seat.sound_act build (s := t.seat x) h (hd x List.mem_cons_self)
    have own := (Seat.own_act build x.act (s := t.seat x) h hg).1
    cases hf : (t.turn build x).fault with
    | some f =>
      rw [turns, Outcome.andThen_of_fault hf]
      exact ⟨sound, own⟩
    | none =>
      rw [turns, Outcome.state_andThen hf]
      exact ih sound own fun y hy => hd y (List.mem_cons_of_mem _ hy)

end Tab

end TabHost
