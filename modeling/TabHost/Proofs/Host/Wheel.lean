import TabHost.Proofs.Host.Teardown
import TabHost.Proofs.Host.Waiting
import TabHost.Proofs.Tab.Wheel

/-!
# No wheel event is stranded

What a tab holds back of its wheel events is dispatched with a later wheel event, and with
nothing else. So the tab may hold something back only while such an event waits, and waits
where it cannot be missed: as the first envelope of its channel, among those of its priority
(`RunQueue.AwaitsWheel`). Every event of the host keeps it so
(`Host.wheelsFollowed_step`), and once no work waits, nothing is held back
(`Host.no_wheel_stranded`).
-/

set_option linter.unusedSectionVars false

namespace TabHost

namespace RunQueue

variable {q r : RunQueue} {tab : TabId}

/-- The first envelope of a channel, among those of a priority, is a wheel event for a tab. -/
def AwaitsWheel (q : RunQueue) (tab : TabId) : Prop :=
  ∃ p c e, q.first? p c = some e ∧ e.tab = tab ∧ e.request.isWheel = true

theorem AwaitsWheel.of_growsTo (h : q.GrowsTo r) (hq : q.AwaitsWheel tab) : r.AwaitsWheel tab := by
  obtain ⟨p, c, e, hfirst, htab, hwheel⟩ := hq
  exact ⟨p, c, e, h.first? hfirst, htab, hwheel⟩

theorem awaitsWheel_of_nextIsWheel {c : Channel} {p : Priority}
    (h : q.nextIsWheel tab c p = true) : q.AwaitsWheel tab := by
  unfold nextIsWheel at h
  split at h
  · cases h
  · next e he =>
    simp only [Bool.and_eq_true, decide_eq_true_eq] at h
    exact ⟨p, c, e, he, h.1, h.2⟩

theorem not_awaitsWheel_of_isIdle (h : q.isIdle = true) : ¬q.AwaitsWheel tab := by
  rintro ⟨p, c, e, hfirst, -⟩
  rw [first?_of_isIdle h] at hfirst
  cases hfirst

end RunQueue

namespace Host

variable {σ : Type} [Content σ]

/-- A tab has nothing of its wheel events left, or a wheel event for it is the first of its
channel. -/
def WheelsFollowed (h : Host σ) : Prop :=
  ∀ tab t, h.tabs.get? tab = some t →
    t.wheel.IsIdle ∨ t.settings.batchWheel = true ∧ h.shared.queue.AwaitsWheel tab

/-- A wheel event that a tab waits for stays where it is, unless it is the one delivered. -/
theorem awaitsWheel_waitingBeside {h : Host σ} {tab : TabId}
    (hq : h.shared.queue.AwaitsWheel tab) (ev : Event σ) :
    (h.waitingBeside ev).AwaitsWheel tab ∨
      ∃ d, h.deed? ev = some d ∧ d.tab = tab ∧ d.act.isWheel = true := by
  obtain ⟨p, c, e, hfirst, htab, hwheel⟩ := hq
  rcases first?_waitingBeside hfirst ev with later | ⟨d, hd, hdtab, hact⟩
  · exact Or.inl ⟨p, c, e, later, htab, hwheel⟩
  · exact Or.inr ⟨d, hd, hdtab.trans htab, by rw [hact]; exact hwheel⟩

/-- Every event that comes to its end keeps it so. -/
theorem wheelsFollowed_step (build : Build) {h : Host σ} (hs : h.Sound) (hw : h.WheelsFollowed)
    {ev : Event σ} (hf : (h.step build ev).fault = none) :
    (h.step build ev).state.WheelsFollowed := by
  intro tab t' ht'
  cases tabCase build hs ht' with
  | created content link _ _ state =>
    rw [state]
    exact Or.inl WheelBatch.isIdle_empty
  | spared ne before deed =>
    refine (hw tab t' before).imp_right ?_
    rintro ⟨batch, awaits⟩
    refine ⟨batch, ?_⟩
    rcases awaitsWheel_waitingBeside awaits ev with later | ⟨d, hd, hk, -⟩
    · exact later.of_growsTo (growsTo_step build hs ne)
    · exact absurd hk (deed d hd)
  | acted d t deed name before _ fault _ state =>
    have ne : ev ≠ .shutdown := by
      rintro rfl
      cases deed
    have grows := growsTo_step build hs ne
    obtain ⟨hsound, hname⟩ := hs tab t before
    have settings := Seat.settings_act build d.act (s := { tab := t, shared := d.around }) hsound
    have was := hw tab t before
    rw [state, settings]
    cases Seat.wheelLeft_act build (s := { tab := t, shared := d.around }) hsound
      (was.imp_right And.left) (fault ▸ hf) with
    | idle idle => exact Or.inl idle
    | same act same =>
      rw [same]
      refine was.imp_right ?_
      rintro ⟨batch, awaits⟩
      refine ⟨batch, ?_⟩
      rcases awaitsWheel_waitingBeside awaits ev with later | ⟨d', hd', -, hwheel⟩
      · exact later.of_growsTo grows
      · rw [deed] at hd'
        cases hd'
        rw [act] at hwheel
        cases hwheel
    | followed e _ batch next =>
      refine Or.inr ⟨batch, ?_⟩
      have first : d.around.queue.AwaitsWheel tab := by
        rw [← hname.id]
        exact RunQueue.awaitsWheel_of_nextIsWheel next
      rw [queue_around deed] at first
      exact first.of_growsTo grows

theorem Reachable.wheelsFollowed {build : Build} {h : Host σ} (hr : h.Reachable build) :
    h.WheelsFollowed := by
  have both : h.Sound ∧ h.WheelsFollowed := by
    refine Reachable.induct (P := fun h => h.Sound ∧ h.WheelsFollowed) ?_ ?_ hr
    · intro settings clock surfaces
      exact ⟨sound_new settings clock surfaces, fun tab t ht => by cases ht⟩
    · intro h ev hp hf
      exact ⟨sound_step build hp.1 ev, wheelsFollowed_step build hp.1 hp.2 hf⟩
  exact both.2

/-- Dispatching the pointer input that tabs kept back does not concern their wheel events. -/
theorem wheel_flushTabs (tabs : List TabId) (tab : TabId) (h : Host σ) :
    ((h.flushTabs tabs).state.tabs.get? tab).map Tab.wheel = (h.tabs.get? tab).map Tab.wheel := by
  have one : ∀ (first : TabId) (h : Host σ),
      ((h.onTab first Seat.flushInput).state.tabs.get? tab).map Tab.wheel =
        (h.tabs.get? tab).map Tab.wheel := by
    intro first h
    by_cases hk : tab = first
    · subst hk
      cases ht : h.tabs.get? tab with
      | none =>
        rw [onTab_of_none ht, Outcome.state_ok, ht]
      | some t =>
        have same := Seat.wheel_flushInput { tab := t, shared := h.shared }
        rw [onTab_of_some ht, Outcome.state_map, Table.get?_insert_self, Option.map_some, same]
        rfl
    · rw [get?_onTab_of_ne hk]
  induction tabs generalizing h with
  | nil => rfl
  | cons first rest ih =>
    refine Outcome.andThen_preserves
      (P := fun h' : Host σ => (h'.tabs.get? tab).map Tab.wheel = (h.tabs.get? tab).map Tab.wheel)
      (one first h) ?_
    intro h' hh'
    exact (ih h').trans hh'

/-- A tab that holds a wheel event back, or remembers the end of a dispatch, awaits another
wheel event. So nothing is left of any wheel event when no work waits, although the tabs do
not look at their wheel events when the host is idle. -/
theorem no_wheel_stranded (build : Build) {h : Host σ} (hr : h.Reachable build) :
    (∀ tab t, h.tabs.get? tab = some t →
      t.wheel.pending.isSome = true ∨ t.wheel.lastProcessed.isSome = true →
      h.shared.queue.AwaitsWheel tab) ∧
    (h.shared.queue.isIdle = true → ∀ tab t, h.tabs.get? tab = some t →
      t.wheel.pending = none ∧ t.wheel.lastProcessed = none) ∧
    ∀ tab, ((h.flushAll).state.tabs.get? tab).map Tab.wheel =
      (h.tabs.get? tab).map Tab.wheel := by
  have followed := hr.wheelsFollowed
  refine ⟨?_, ?_, fun tab => wheel_flushTabs h.tabs.keys tab h⟩
  · intro tab t ht hleft
    rcases followed tab t ht with idle | ⟨-, awaits⟩
    · rw [idle.pending, idle.lastProcessed] at hleft
      simp at hleft
    · exact awaits
  · intro hidle tab t ht
    rcases followed tab t ht with idle | ⟨-, awaits⟩
    · exact ⟨idle.pending, idle.lastProcessed⟩
    · exact absurd awaits (RunQueue.not_awaitsWheel_of_isIdle hidle)

/-- Three wheel events for a tab whose content takes a millisecond for each, and two of them
delivered. -/
def scrolled : Host Headless :=
  ((new {} .zero {}).performs .checked
    ([.event (.create { value := 7 } { cost := .ofNanos 1000000 })] ++
      List.replicate 3 (.event (.post { tab := { value := 7 }, request := .wheel {} })) ++
      List.replicate 2 (.event .runOne))).state

/-- The second wheel event is held back, and the third one waits. -/
theorem no_wheel_stranded_scrolled :
    (∃ t, scrolled.tabs.get? { value := 7 } = some t ∧ t.wheel.pending.isSome = true) ∧
    scrolled.shared.queue.AwaitsWheel { value := 7 } := by
  have reachable : scrolled.Reachable .checked := (Reachable.new {} .zero {}).performs (by rfl)
  have hosted : (scrolled.tabs.get? { value := 7 }).isSome = true := by rfl
  obtain ⟨t, ht⟩ := Option.isSome_iff_exists.mp hosted
  have held : (scrolled.tabs.get? { value := 7 }).any (fun t => t.wheel.pending.isSome) = true := by
    rfl
  rw [ht] at held
  have held : t.wheel.pending.isSome = true := held
  exact ⟨⟨t, ht, held⟩, (no_wheel_stranded .checked reachable).1 _ t ht (Or.inl held)⟩

end Host

end TabHost
