import TabHost.Content.Headless
import TabHost.Proofs.Host.History

/-!
# A tab that is torn down stays so

The event in which a tab ceases to be live takes its window away for good
(`Host.ClosesWindow`), and whatever the host is asked to do from then on, until a tab of that
id is created again, content is not called, the tab is left alone, no surface is registered
for it, and at most the farewell is sent (`Host.LeavesAlone`). So content of every tab is told
of its end once, and that is the last that it is called for (`Host.tornDown_for_good`).
-/

set_option linter.unusedSectionVars false

namespace TabHost

/-- Every entry for a tab was there before. -/
def Surfaces.GrantsNone (tab : TabId) (before after : Surfaces) : Prop :=
  ∀ surface e, after.entries.get? surface = some e → e.handle.tab = tab →
    ∃ e', before.entries.get? surface = some e' ∧ e'.handle = e.handle

namespace Surfaces.GrantsNone

variable {tab other : TabId} {a b c : Surfaces}

theorem refl (tab : TabId) (a : Surfaces) : GrantsNone tab a a := fun _ e h _ => ⟨e, h, rfl⟩

theorem trans (h : GrantsNone tab a b) (h' : GrantsNone tab b c) : GrantsNone tab a c := by
  intro surface e he ht
  obtain ⟨e', he', heq⟩ := h' surface e he ht
  obtain ⟨e'', he'', heq'⟩ := h surface e' he' (heq ▸ ht)
  exact ⟨e'', he'', heq'.trans heq⟩

theorem of_grantsOnly (hne : other ≠ tab) (h : GrantsOnly other a b) : GrantsNone tab a b := by
  intro surface e he ht
  rcases h surface e he with ho | h'
  · exact absurd (ho.symm.trans ht) hne
  · exact h'

end Surfaces.GrantsNone

namespace Seat

variable {σ : Type} [Content σ]

/-- Whatever is done to a tab, surfaces are registered for that tab only. -/
theorem grants_act (build : Build) (a : Act) {s : Seat σ} (h : s.tab.Sound) :
    Surfaces.GrantsOnly s.tab.id s.shared.surfaces (act build a s).state.shared.surfaces := by
  cases does_act build a h with
  | works _ _ hw => exact hw.grants
  | hungUp _ _ _ heq =>
    rw [heq]
    exact .refl _ _
  | tornDown _ _ ht =>
    rw [ht.surfaces]
    exact .dropAny _ _ _ _
  | rests live hr =>
    rw [(hr.idles live).surfaces]
    exact .refl _ _

end Seat

namespace Host

variable {σ : Type} [Content σ]

/-- Whether there is a live tab of an id. -/
def isLive (h : Host σ) (tab : TabId) : Bool := (h.tabs.get? tab).any fun t => t.state.isLive

/-- The tab ceased to be live: content was told, and nothing else comes of the tab; nothing
of its window is left; and its surface is not registered any more. -/
structure ClosesWindow (h : Host σ) (tab : TabId) (o : Outcome Effect (Host σ)) : Prop where
  effects : o.trace.filter (Effect.isOf tab) = [.call tab (.notice .destroy)]
  window : ∀ t, o.state.tabs.get? tab = some t → t.IsTornDown
  entry : ∀ t surface, h.tabs.get? tab = some t → t.surface = some surface →
    o.state.shared.surfaces.entries.get? surface = none

/-- A tab that is not live is left alone: content is not called, at most the farewell is
sent, and if the tab is still there it is what it was, but for its stage of life and its
link. -/
structure LeavesAlone (h : Host σ) (tab : TabId) (o : Outcome Effect (Host σ)) : Prop where
  isLive : o.state.isLive tab = false
  calls : callsOf tab o.trace = []
  said : saidBy tab o.trace = [] ∨ saidBy tab o.trace = [.channelClose]
  rest : ∀ t', o.state.tabs.get? tab = some t' → t'.IsTornDown ∧
    ∃ t, h.tabs.get? tab = some t ∧
      ∃ stage ipcOpen link, t' = { t with state := stage, ipcOpen := ipcOpen, link := link }

/-- What content is called for from some time on when the tab is live: it is told of the end
of the tab if it came to it, once and last of all. -/
structure TellsOnce (tab : TabId) (o : Outcome Effect (Host σ)) : Prop where
  live : o.state.isLive tab = true → .notice .destroy ∉ callsOf tab o.trace
  ended : o.state.isLive tab = false →
    ∃ before, callsOf tab o.trace = before ++ [.notice .destroy] ∧ .notice .destroy ∉ before

/-! ## While a tab is live -/

theorem isLive_of_get? {h : Host σ} {tab : TabId} {t : Tab σ} (ht : h.tabs.get? tab = some t) :
    h.isLive tab = t.state.isLive := by
  simp [isLive, ht]

theorem isLive_of_none {h : Host σ} {tab : TabId} (ht : h.tabs.get? tab = none) :
    h.isLive tab = false := by
  simp [isLive, ht]

theorem exists_of_isLive {h : Host σ} {tab : TabId} (hl : h.isLive tab = true) :
    ∃ t, h.tabs.get? tab = some t ∧ t.state.isLive = true := by
  simpa [isLive, Option.any_eq_true] using hl

theorem not_mem_callsOf_of_filter {tab : TabId} {trace : List Effect}
    (h : trace.filter (Effect.isOf tab) = []) {c : Call} : c ∉ callsOf tab trace := by
  rw [← callsOf_filter_isOf, h]
  exact List.not_mem_nil

/-- A live tab stays live, and content is not told of its end; or else its window goes
away. -/
def LivesOrCloses (h : Host σ) (tab : TabId) (o : Outcome Effect (Host σ)) : Prop :=
  o.state.isLive tab = true ∧ .notice .destroy ∉ callsOf tab o.trace ∨
    o.state.isLive tab = false ∧ h.ClosesWindow tab o

theorem livesOrCloses_acts {build : Build} {h : Host σ} {tab : TabId} {a : Act} {t : Tab σ}
    {around : Shared} {o : Outcome Effect (Host σ)} (ht : h.tabs.get? tab = some t)
    (hs : t.Sound) (hg : t.GoesBy tab) (hl : t.state.isLive = true) (ne : a ≠ .drop)
    (acts : Acts build h tab a { tab := t, shared := around } o) : h.LivesOrCloses tab o := by
  -- a tab that the act leaves live is not reaped
  have lives : (Seat.act build a { tab := t, shared := around }).state.tab.state = t.state →
      o.state.isLive tab = true := by
    intro hstate
    rcases acts.own with hown | ⟨-, hdel⟩
    · rw [isLive_of_get? hown, hstate]
      exact hl
    · rw [← hstate, hdel] at hl
      cases hl
  cases Seat.does_act build a (s := { tab := t, shared := around }) hs with
  | works _ _ hw =>
    refine Or.inl ⟨lives hw.state, fun hc => ?_⟩
    rw [acts.trace] at hc
    exact hw.calls hc rfl
  | hungUp _ _ _ heq =>
    refine Or.inl ⟨lives (by rw [heq]; rfl), ?_⟩
    rw [acts.trace, heq]
    exact List.not_mem_nil
  | tornDown _ ha hd =>
    have dead := Act.isLive_stageAfter ha ne t.state
    refine Or.inr ⟨?_, ?_, fun t' ht' => ?_, fun t' surface ht' hsurface => ?_⟩
    · rcases acts.own with hown | ⟨hnone, -⟩
      · rw [isLive_of_get? hown, hd.tab]
        exact dead
      · exact isLive_of_none hnone
    · rw [acts.trace, hd.trace, ← hg.id]
      simp [Effect.isOf]
    · rcases acts.own with hown | ⟨hnone, -⟩
      · rw [hown] at ht'
        cases ht'
        rw [hd.tab]
        exact ⟨rfl, rfl, rfl, rfl, rfl, rfl, rfl⟩
      · rw [hnone] at ht'
        cases ht'
    · rw [ht] at ht'
      cases ht'
      rw [acts.shared, hd.surfaces, Surfaces.entries_dropAny,
        show t.surface = some surface from hsurface]
      exact Table.get?_erase_self _ _
  | rests live _ => exact absurd (hl.symm.trans live) (by simp)

theorem livesOrCloses_step (build : Build) {h : Host σ} (hs : h.Sound) {tab : TabId}
    (hl : h.isLive tab = true) (ev : Event σ) : h.LivesOrCloses tab (h.step build ev) := by
  obtain ⟨t, ht, hlive⟩ := exists_of_isLive hl
  obtain ⟨hsound, hname⟩ := hs tab t ht
  cases stepCase build hs ev with
  | quiet _ _ tabs trace =>
    refine Or.inl ⟨?_, ?_⟩
    · rw [isLive, tabs]
      exact hl
    · rw [trace]
      exact List.not_mem_nil
  | created tab' content link _ _ _ new state =>
    have hne : tab ≠ tab' := by
      rintro rfl
      rw [new] at ht
      cases ht
    rw [state]
    refine Or.inl ⟨?_, not_mem_callsOf_of_filter rfl⟩
    rw [isLive_of_get? ((Table.get?_insert_of_ne hne _ _).trans ht)]
    exact hlive
  | acted d t' deed htab _ acts =>
    by_cases hk : tab = d.tab
    · subst hk
      rw [ht] at htab
      cases htab
      exact livesOrCloses_acts ht hsound hname hlive (act_ne_drop deed) acts
    · obtain ⟨hsound', hname'⟩ := hs _ _ htab
      refine Or.inl ⟨?_, not_mem_callsOf_of_filter ?_⟩
      · rw [isLive_of_get? ((acts.others tab hk).trans ht)]
        exact hlive
      · rw [acts.trace]
        exact filter_isOf_of_ne hk (Seat.own_act build d.act hsound' hname').2
  | shut _ shuts =>
    refine Or.inr ⟨isLive_of_none (shuts.tabs tab), ?_, fun t' ht' => ?_, fun _ surface _ _ => ?_⟩
    · rw [shuts.hosted tab t ht, (trace_turn_drop build ht h.shared).2, farewells, ht]
      simp [(hsound.live hlive).2, hname.id]
    · rw [shuts.tabs] at ht'
      cases ht'
    · exact shuts.entries surface

/-! ## Once a tab is not live -/

theorem leavesAlone_runs (build : Build) {h : Host σ} (hs : h.Sound) {tab : TabId}
    (hl : h.isLive tab = false) {evs : List (Event σ)}
    (hu : Untouched tab (h.runs build evs).trace) : h.LeavesAlone tab (h.runs build evs) := by
  cases ht : h.tabs.get? tab with
  | none =>
    obtain ⟨htr, hnone⟩ := absent_runs build evs hs ht hu
    refine ⟨isLive_of_none hnone, ?_, Or.inl ?_, fun t' ht' => ?_⟩
    · rw [← callsOf_filter_isOf, htr]
      rfl
    · rw [← saidBy_filter_isOf, htr]
      rfl
    · rw [hnone] at ht'
      cases ht'
  | some t =>
    obtain ⟨hsound, hname⟩ := hs tab t ht
    have hdead : t.state.isLive = false := (isLive_of_get? ht).symm.trans hl
    have tells := tells_runs build evs hs ht hu
    have idles :=
      Tab.idles_turns build (h.turnsOf build tab evs) hdead (hsound.tornDown hdead) hname
    refine ⟨?_, ?_, ?_, fun t' ht' => ?_⟩
    · rcases tells.tab with hown | ⟨hnone, -⟩
      · rw [isLive_of_get? hown]
        exact idles.state
      · exact isLive_of_none hnone
    · rw [← callsOf_filter_isOf, tells.trace]
      rcases idles.trace with htr | ⟨-, -, route, htr⟩ <;> rw [htr] <;> rfl
    · rw [← saidBy_filter_isOf, tells.trace]
      rcases idles.trace with htr | ⟨-, -, route, htr⟩
      · exact Or.inl (by rw [htr]; rfl)
      · exact Or.inr (by rw [htr]; simp [saidBy, Effect.replyOf?])
    · rcases tells.tab with hown | ⟨hnone, -⟩
      · rw [hown] at ht'
        cases ht'
        exact ⟨(hsound.tornDown hdead).of_eq idles.rest, t, ht, idles.rest⟩
      · rw [hnone] at ht'
        cases ht'

/-- No surface is registered for a tab that is not live. -/
theorem grantsNone_step (build : Build) {h : Host σ} (hs : h.Sound) {tab : TabId}
    (hl : h.isLive tab = false) {ev : Event σ} (hf : ev.isForeign = false) :
    Surfaces.GrantsNone tab h.shared.surfaces (h.step build ev).state.shared.surfaces := by
  cases stepCase build hs ev with
  | quiet _ _ _ _ surfaces =>
    rw [surfaces hf]
    exact .refl _ _
  | created _ _ _ _ _ _ _ state =>
    rw [state]
    exact .refl _ _
  | acted d t _ htab around acts =>
    obtain ⟨hsound, hname⟩ := hs _ _ htab
    rw [acts.shared, ← around]
    by_cases hk : d.tab = tab
    · subst hk
      have hdead : t.state.isLive = false := (isLive_of_get? htab).symm.trans hl
      have rests := Seat.rests_act build d.act (s := { tab := t, shared := d.around }) hdead
        (hsound.tornDown hdead)
      rw [(rests.idles hdead).surfaces]
      exact .refl _ _
    · have grants := Seat.grants_act build d.act (s := { tab := t, shared := d.around }) hsound
      exact .of_grantsOnly (by rw [hname.id]; exact hk) grants
  | shut _ shuts =>
    intro surface e he
    rw [shuts.entries] at he
    cases he

theorem grantsNone_runs (build : Build) {tab : TabId} (evs : List (Event σ)) {h : Host σ}
    (hs : h.Sound) (hl : h.isLive tab = false) (hf : ∀ ev ∈ evs, ev.isForeign = false)
    (hu : Untouched tab (h.runs build evs).trace) :
    Surfaces.GrantsNone tab h.shared.surfaces (h.runs build evs).state.shared.surfaces := by
  induction evs generalizing h with
  | nil => exact .refl _ _
  | cons ev rest ih =>
    have first := grantsNone_step build hs hl (hf ev List.mem_cons_self)
    cases hfault : (h.step build ev).fault with
    | some f =>
      rw [runs, Outcome.andThen_of_fault hfault]
      exact first
    | none =>
      rw [runs, Outcome.trace_andThen hfault] at hu
      obtain ⟨hu, hu'⟩ := untouched_append.mp hu
      have hl' : (h.step build ev).state.isLive tab = false := by
        rw [← runs_singleton] at hu ⊢
        exact (leavesAlone_runs build hs hl hu).isLive
      rw [runs, Outcome.state_andThen hfault]
      exact first.trans
        (ih (sound_step build hs ev) hl' (fun ev he => hf ev (List.mem_cons_of_mem _ he)) hu')

/-! ## Over a whole life -/

theorem tellsOnce_runs (build : Build) {tab : TabId} (evs : List (Event σ)) {h : Host σ}
    (hs : h.Sound) (hl : h.isLive tab = true) (hu : Untouched tab (h.runs build evs).trace) :
    TellsOnce tab (h.runs build evs) := by
  induction evs generalizing h with
  | nil =>
    exact ⟨fun _ => List.not_mem_nil, fun hd => absurd (hl.symm.trans hd) (by simp)⟩
  | cons ev rest ih =>
    have hclosed : ∀ {o : Outcome Effect (Host σ)}, h.ClosesWindow tab o →
        callsOf tab o.trace = [.notice .destroy] := by
      intro o hc
      rw [← callsOf_filter_isOf, hc.effects]
      simp [callsOf, Effect.callOf?]
    cases hf : (h.step build ev).fault with
    | some f =>
      rw [runs, Outcome.andThen_of_fault hf]
      rcases livesOrCloses_step build hs hl ev with ⟨hl', hn⟩ | ⟨hl', hc⟩
      · exact ⟨fun _ => hn, fun hd => absurd (hl'.symm.trans hd) (by simp)⟩
      · exact ⟨fun h' => absurd (hl'.symm.trans h') (by simp),
          fun _ => ⟨[], hclosed hc, List.not_mem_nil⟩⟩
    | none =>
      rw [runs, Outcome.trace_andThen hf] at hu
      obtain ⟨hu, hu'⟩ := untouched_append.mp hu
      have hs' := sound_step build hs ev
      rw [runs]
      rcases livesOrCloses_step build hs hl ev with ⟨hl', hn⟩ | ⟨hl', hc⟩
      · have later := ih hs' hl' hu'
        refine ⟨fun h' => ?_, fun h' => ?_⟩ <;>
          rw [Outcome.state_andThen hf] at h' <;>
          rw [Outcome.trace_andThen hf, callsOf_append]
        · exact fun hm => (List.mem_append.mp hm).elim hn (later.live h')
        · obtain ⟨before, heq, hb⟩ := later.ended h'
          refine ⟨callsOf tab (h.step build ev).trace ++ before, ?_, ?_⟩
          · rw [heq, List.append_assoc]
          · exact fun hm => (List.mem_append.mp hm).elim hn hb
      · have later := leavesAlone_runs build hs' hl' hu'
        refine ⟨fun h' => ?_, fun _ => ⟨[], ?_, List.not_mem_nil⟩⟩
        · rw [Outcome.state_andThen hf, later.isLive] at h'
          cases h'
        · rw [Outcome.trace_andThen hf, callsOf_append, hclosed hc, later.calls]
          rfl

/-- The event in which a tab ceases to be live closes its window, and whatever the host is
asked to do from then on leaves the tab alone, until one of its id is created again; so
content is told once, and last of all. -/
theorem tornDown_for_good (build : Build) {h : Host σ} (hr : h.Reachable build) (tab : TabId) :
    (∀ t, h.tabs.get? tab = some t → t.state.isLive = false → t.IsTornDown) ∧
    (∀ ev : Event σ, h.isLive tab = true → (h.step build ev).state.isLive tab = false →
      h.ClosesWindow tab (h.step build ev)) ∧
    (∀ ops : List (Op σ), h.isLive tab = false → Untouched tab (h.performs build ops).trace →
      h.LeavesAlone tab (h.performs build ops) ∧
      ((∀ ev, .event ev ∈ ops → ev.isForeign = false) →
        Surfaces.GrantsNone tab h.shared.surfaces
          (h.performs build ops).state.shared.surfaces)) ∧
    (∀ ops : List (Op σ), h.isLive tab = true → Untouched tab (h.performs build ops).trace →
      TellsOnce tab (h.performs build ops)) := by
  have hs := hr.sound
  refine ⟨fun t ht hd => (hs tab t ht).1.tornDown hd, fun ev hl hd => ?_, fun ops hl hu => ?_,
    fun ops hl hu => ?_⟩
  · rcases livesOrCloses_step build hs hl ev with ⟨hl', -⟩ | ⟨-, hc⟩
    · exact absurd (hl'.symm.trans hd) (by simp)
    · exact hc
  · rw [performs_eq_runs] at hu ⊢
    refine ⟨leavesAlone_runs build hs hl hu, fun hf =>
      grantsNone_runs build _ hs hl (fun ev he => ?_) hu⟩
    rcases mem_eventsOfAll he with hop | rfl | ⟨tab, rfl⟩
    · exact hf ev hop
    · rfl
    · rfl
  · rw [performs_eq_runs] at hu ⊢
    exact tellsOnce_runs build _ hs hl hu

/-- A host with one tab. -/
def single : Host Headless :=
  (new {} .zero {}).step .checked (.create { value := 7 } ({} : Headless)) |>.state

theorem reachable_single : single.Reachable .checked :=
  .perform (.new {} .zero {}) (.event (.create { value := 7 } ({} : Headless))) rfl

/-- Destroying the tab closes its window; a request that comes later is lost on it, and the
two passes of its delete say farewell; and in all of that content is told once. -/
theorem tornDown_for_good_single :
    (single.ClosesWindow { value := 7 } (single.step .checked (.destroy { value := 7 }))) ∧
    (single.step .checked (.destroy { value := 7 })).state.LeavesAlone { value := 7 }
      ((single.step .checked (.destroy { value := 7 })).state.performs .checked
        [.event (.post { tab := { value := 7 }, request := .setActive true }), .runUntilIdle]) ∧
    TellsOnce { value := 7 }
      (single.performs .checked [.event (.destroy { value := 7 }), .runUntilIdle]) := by
  have destroyed : (single.step .checked (.destroy { value := 7 })).state.Reachable .checked :=
    .perform reachable_single (.event (.destroy { value := 7 })) rfl
  refine ⟨?_, ?_, ?_⟩
  · exact (tornDown_for_good .checked reachable_single { value := 7 }).2.1 _ rfl rfl
  · exact ((tornDown_for_good .checked destroyed { value := 7 }).2.2.1 _ rfl
      (by unfold Untouched; decide)).1
  · exact (tornDown_for_good .checked reachable_single { value := 7 }).2.2.2 _ rfl
      (by unfold Untouched; decide)

end Host

end TabHost
