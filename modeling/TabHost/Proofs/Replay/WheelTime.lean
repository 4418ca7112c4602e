import TabHost.Proofs.Host.Fifo
import TabHost.Proofs.Host.Violations
import TabHost.Proofs.Replay.Session
import TabHost.Proofs.Tab.Pace
import TabHost.Proofs.Wire.Limits

/-!
# Wheel events do not overflow the time of a replay

A replay is a host of headless tabs on one clock, and all durations in its steps are read from the
wire. However far its clock gets, and whatever other tabs there are, the times that a tab remembers
of its wheel events stay below five times the longest duration on the wire (`Host.KeepsTime`), and
so no sum of them overflows: what overflows, if anything does, is the clock
(`Replay.keeps_time`).
-/

set_option linter.unusedSectionVars false

namespace TabHost

/-- An event brings in nothing that takes longer than can be told on the wire, and is not the end
of all tabs. -/
def Event.IsLimited : Event Headless → Prop
  | .create _ content => content.cost.IsLimited
  | .createOver _ content _ => content.cost.IsLimited
  | .post e => e.request.IsLimited
  | .shutdown => False
  | _ => True

namespace Host

variable {build : Build} {h h' : Host Headless} {ev : Event Headless} {e : Envelope} {d : Deed}

/-! ## Hosts that keep time -/

/-- All tabs are timely, and the wheel events that wait for them come from the wire. -/
structure KeepsTime (h : Host Headless) : Prop where
  sound : h.Sound
  tabs : ∀ tab t, h.tabs.get? tab = some t → t.Timely
  waiting : ∀ p, ∀ e ∈ h.envelopesAt p, e.request.IsLimited

/-- The clock has not the time that the content of some tab takes for an event. -/
def OutOfTime (h : Host Headless) : Prop :=
  ∃ tab t, h.tabs.get? tab = some t ∧
    Duration.limit < h.shared.clock.nanos + t.content.cost.nanos

/-- An envelope that is due waits. -/
theorem mem_envelopesAt_of_due (due : h.takeTask? = some (.deliver e, h')) :
    ∃ p, e ∈ h.envelopesAt p := by
  have done := doneAt_runOne due
  have waits : ∀ p, .deliver e ∈ h.doneAt p .runOne → e ∈ h.envelopesAt p := by
    intro p hm
    rw [envelopesAt_eq, tasks_pullInbox_eq, envelopesOf_append]
    exact List.mem_append_left _ (List.mem_filterMap.mpr ⟨_, hm, rfl⟩)
  have either : .deliver e ∈ h.doneAt .input .runOne ++ h.doneAt .normal .runOne := by
    rw [done]
    exact List.mem_singleton.mpr rfl
  rcases List.mem_append.mp either with hm | hm
  · exact ⟨_, waits _ hm⟩
  · exact ⟨_, waits _ hm⟩

/-- What is delivered is due. -/
theorem due_of_deed (deed : h.deed? ev = some d) (act : d.act = .request e) :
    ∃ h', h.takeTask? = some (.deliver e, h') := by
  cases ev with
  | runOne =>
    obtain ⟨⟨task, h'⟩, due, rfl⟩ := Option.map_eq_some_iff.mp deed
    cases task with
    | deliver e' =>
      cases act
      exact ⟨h', due⟩
    | delete => cases act
  | _ => cases deed <;> cases act

/-- The wheel events that a host delivers come from the wire. -/
theorem KeepsTime.early (ht : h.KeepsTime) (deed : h.deed? ev = some d) :
    ∀ e w, d.act = .request e → e.request = .wheel w → w.timestamp.IsLimited := by
  intro e w act wheel
  obtain ⟨h', due⟩ := due_of_deed deed act
  obtain ⟨p, waits⟩ := mem_envelopesAt_of_due due
  have limited := ht.waiting p e waits
  rw [wheel] at limited
  exact limited

theorem keepsTime_new (settings : Settings) (clock : Duration) (surfaces : Surfaces) :
    (new settings clock surfaces : Host Headless).KeepsTime := by
  refine ⟨sound_new settings clock surfaces, fun tab t ht => (by cases ht), fun p e he => ?_⟩
  rw [envelopesAt_new] at he
  cases he

/-- A tab that is there once one is created was there before, or is the new one. -/
theorem get?_createIfNew {tab other : TabId} {content : Headless} {link : ParentLink}
    {t : Tab Headless} (ht : (h.createIfNew tab content link).state.tabs.get? other = some t) :
    h.tabs.get? other = some t ∨ t = (Tab.create tab h.settings content).connected link := by
  unfold createIfNew create? at ht
  cases hc : h.tabs.contains tab with
  | true =>
    rw [hc] at ht
    exact .inl ht
  | false =>
    rw [hc] at ht
    by_cases hk : other = tab
    · subst hk
      exact .inr (Option.some.inj ((Table.get?_insert_self _ _ _).symm.trans ht)).symm
    · exact .inl ((Table.get?_insert_of_ne hk _ _).symm.trans ht)

/-- A new tab is timely if its content takes no longer than can be told on the wire. -/
theorem timely_connected {content : Headless} (slow : content.cost.IsLimited) (tab : TabId)
    (settings : Settings) (link : ParentLink) :
    ((Tab.create tab settings content).connected link).Timely :=
  ⟨slow, WheelBatch.timely_empty _⟩

/-- Whatever happens to a host, it goes on keeping time. -/
theorem keepsTime_step (build : Build) (ht : h.KeepsTime) {ev : Event Headless}
    (limited : ev.IsLimited)
    (hf : (h.step build ev).fault = none) : (h.step build ev).state.KeepsTime := by
  have ne : ev ≠ .shutdown := by
    rintro rfl
    exact limited
  refine ⟨sound_step build ht.sound ev, fun tab t' ht' => ?_, fun p e he => ?_⟩
  · cases stepCase build ht.sound ev with
    | quiet _ _ tabs => exact ht.tabs tab t' (tabs ▸ ht')
    | created _ _ _ _ _ event =>
      rcases event with ⟨c, rfl⟩ | ⟨c, heard, rfl⟩
      all_goals
        rcases get?_createIfNew ht' with before | rfl
        · exact ht.tabs tab t' before
        · exact timely_connected limited ..
    | acted d t deed before _ acts =>
      by_cases hk : tab = d.tab
      · subst hk
        have timely := (Seat.paced_act build (s := { tab := t, shared := d.around })
          (ht.sound d.tab t before).1 (ht.tabs d.tab t before) (ht.early deed)).2
          (acts.fault ▸ hf)
        rcases acts.own with own | ⟨gone, -⟩
        · cases own.symm.trans ht'
          exact timely
        · cases gone.symm.trans ht'
      · exact ht.tabs tab t' (acts.others tab hk ▸ ht')
    | shut event => exact absurd event ne
  · have all := envelopes_step build ht.sound ne p
    have there : e ∈ h.envelopesAt p ++ posted p [ev] := by
      rw [← all]
      exact List.mem_append_right _ he
    rcases List.mem_append.mp there with before | new
    · exact ht.waiting p e before
    · cases ev with
      | post posted =>
        obtain rfl := List.mem_singleton.mp (List.mem_of_mem_filter new)
        exact limited
      | _ => cases new

/-! ## Only the clock overflows -/

/-- An act without its tab adds no durations up. -/
theorem onTime_of_absent (build : Build) (deed : h.deed? ev = some d)
    (absent : h.tabs.get? d.tab = none) :
    (h.step build ev).fault ≠ some .durationOverflow := by
  have violation : ∀ (tab : TabId) (v : Violation) (h : Host Headless),
      (Outcome.violation build tab v h : Outcome Effect (Host Headless)).fault ≠
        some .durationOverflow := by
    intro tab v h
    cases build <;> simp [Outcome.violation, Outcome.fail]
  have missing : ∀ {tab : TabId} {v : Violation} {op : Operation Headless},
      h.tabs.get? tab = none → (h.onHosted build tab v op).fault ≠ some .durationOverflow := by
    intro tab v op hn
    rw [onHosted, Table.contains, hn]
    exact violation tab v h
  cases ev with
  | runOne =>
    obtain ⟨⟨task, h'⟩, due, rfl⟩ := Option.map_eq_some_iff.mp deed
    have absent : h'.tabs.get? task.tab = none := (takeTask?_eq_some due).1 ▸ absent
    rw [step, runOne, due]
    cases task with
    | deliver e =>
      have unrouted : h'.tabs.contains e.tab = false := Table.contains_eq_false_iff.mpr absent
      simp only [runTask, unrouted, Bool.false_eq_true, if_false, dropUnrouted]
      split
      · simp
      · exact violation _ _ _
      · simp
      · exact violation _ _ _
    | delete d =>
      have absent : h'.tabs.get? d.tab = none := absent
      have kept : h'.isReapable d.tab = false := by
        rw [isReapable, absent]
        rfl
      simp [runTask, onTab_of_none absent, reap, kept]
  | flush | hangUp =>
    cases deed
    rw [step, onTab_of_none absent]
    simp
  | addBlocker | removeBlocker | destroy =>
    cases deed
    exact missing absent
  | push => simp [step]
  | _ => cases deed

/-- Where a sum of durations has no value, it is the clock that has not that much time. -/
theorem late_step (build : Build) (ht : h.KeepsTime)
    (late : (h.step build ev).fault = some .durationOverflow) :
    (h.step build ev).state.OutOfTime := by
  cases deed : h.deed? ev with
  | none => cases late.symm.trans (ends_step_of_no_deed build ht.sound deed)
  | some d =>
    cases hosted : h.tabs.get? d.tab with
    | none => exact absurd late (onTime_of_absent build deed hosted)
    | some t =>
      have acts := acts_of_deed build ht.sound deed hosted
      have sound := (ht.sound d.tab t hosted).1
      have paced := (Seat.paced_act build (s := { tab := t, shared := d.around }) sound
        (ht.tabs d.tab t hosted) (ht.early deed)).1
      have stopped := acts.fault.symm.trans late
      refine ⟨d.tab, _, acts.own.resolve_right fun gone => ?_, ?_⟩
      · have live := Seat.live_of_late build sound stopped
        rw [gone.2] at live
        cases live
      · rw [acts.shared]
        exact paced.late stopped

/-- Some events are stopped in the state in which the last of them left the host. -/
theorem keepsTime_runs (build : Build) {evs : List (Event Headless)} (ht : h.KeepsTime)
    (limited : ∀ ev ∈ evs, ev.IsLimited) :
    ((h.runs build evs).fault = none → (h.runs build evs).state.KeepsTime) ∧
      ((h.runs build evs).fault = some .durationOverflow →
        (h.runs build evs).state.OutOfTime) := by
  induction evs generalizing h with
  | nil => exact ⟨fun _ => ht, fun late => by cases late⟩
  | cons ev rest ih =>
    rw [runs]
    cases here : (h.step build ev).fault with
    | some f =>
      rw [Outcome.andThen_of_fault here]
      refine ⟨fun hf => (by cases here.symm.trans hf), fun late => late_step build ht late⟩
    | none =>
      rw [Outcome.fault_andThen here, Outcome.state_andThen here]
      exact ih (keepsTime_step build ht (limited ev List.mem_cons_self) here)
        fun ev' hm => limited ev' (List.mem_cons_of_mem _ hm)

end Host

/-! ## Replays -/

namespace Replay

open Host

variable {build : Build} {settings : Settings} {h : Host Headless} {step : Step}
  {steps : List Step}

/-- A run until idle is made up of events that bring in nothing. -/
theorem limited_of_mem_idleEvents (build : Build) {ev : Event Headless}
    (hm : ev ∈ h.idleEvents build) : ev.IsLimited := by
  have works : ev ∈ h.eventsOf build .runUntilIdle := hm
  rcases (mem_eventsOf works).resolve_left (by simp) with rfl | ⟨tab, rfl⟩ <;> exact trivial

/-- What stops a step: the clock has not the time that is to pass, or that content takes. -/
def ClockOverflows (step : Step) (h h' : Host Headless) : Prop :=
  (∃ time, step = .advance time ∧ Duration.limit < h.shared.clock.nanos + time.nanos) ∨
    h'.OutOfTime

/-- A step whose durations come from the wire keeps time. -/
theorem keepsTime_apply {o : Outcome Effect (Host Headless)} (ht : h.KeepsTime)
    (limited : step.IsLimited) (ho : apply build step h = .ok o) :
    (o.fault = none → o.state.KeepsTime) ∧
      (o.fault = some .durationOverflow → ClockOverflows step h o.state) := by
  have event : ∀ ev : Event Headless, ev.IsLimited → o = h.step build ev →
      (o.fault = none → o.state.KeepsTime) ∧
        (o.fault = some .durationOverflow → ClockOverflows step h o.state) := by
    rintro ev limited rfl
    exact ⟨keepsTime_step build ht limited, fun late => .inr (late_step build ht late)⟩
  cases step with
  | createTab tab visible cost =>
    refine event (.create tab { visible := visible, cost := cost }) limited ?_
    rw [Host.step, createIfNew, show h.create? tab _ _ = .ok o from ho]
  | send e => exact event (.post e) limited (Except.ok.inj ho).symm
  | addBlocker tab => exact event (.addBlocker tab) trivial (Except.ok.inj ho).symm
  | removeBlocker tab => exact event (.removeBlocker tab) trivial (Except.ok.inj ho).symm
  | destroy tab => exact event (.destroy tab) trivial (Except.ok.inj ho).symm
  | advance time =>
    cases ho
    unfold Host.advance
    cases moved : h.shared.clock.add? time with
    | none =>
      refine ⟨fun hf => (by cases hf), fun _ => .inl ⟨time, rfl, ?_⟩⟩
      unfold Duration.add? Duration.ofNanos? at moved
      split at moved
      · cases moved
      · next past => exact Nat.not_le.mp past
    | some t =>
      have set : (h.step build (.setClock t)).state.KeepsTime :=
        keepsTime_step build ht trivial rfl
      exact ⟨fun _ => set, fun late => by cases late⟩
  | run =>
    cases ho
    rw [start_eq_runs]
    obtain ⟨ends, stops⟩ := keepsTime_runs build ht fun ev hm =>
      limited_of_mem_idleEvents build hm
    exact ⟨ends, fun late => .inr (stops late)⟩

/-- So do all steps of a replay. -/
theorem keepsTime_applyAll (build : Build) (ht : h.KeepsTime)
    (limited : ∀ step ∈ steps, step.IsLimited)
    (ends : (applyAll build steps h).stop = none) : (applyAll build steps h).host.KeepsTime := by
  induction steps generalizing h with
  | nil => exact ht
  | cons step rest ih =>
    rw [applyAll] at ends ⊢
    split at ends
    · cases ends
    · next o ho =>
      split at ends
      · cases ends
      · next hf =>
        exact ih ((keepsTime_apply ht (limited step List.mem_cons_self) ho).1 hf)
          (fun step' hm => limited step' (List.mem_cons_of_mem _ hm)) ends

/-- A host that a replay passes through: the one after some steps, or after some events of a run
until idle from there. -/
def Passes (build : Build) (settings : Settings) (steps : List Step) (h : Host Headless) : Prop :=
  ∃ before evs, before <+: steps ∧ (applyAll build before (start settings)).stop = none ∧
    evs <+: (applyAll build before (start settings)).host.idleEvents build ∧
    ((applyAll build before (start settings)).host.runs build evs).fault = none ∧
    ((applyAll build before (start settings)).host.runs build evs).state = h

/-- How the times of wheel events add up in a replay. -/
structure KeepsTime (build : Build) (settings : Settings) (steps : List Step) : Prop where
  /-- The last dispatch of a wheel event, as it was measured, took at most twice the time that the
  content of the tab takes for an event. -/
  brief : ∀ h tab t, Passes build settings steps h → h.tabs.get? tab = some t →
    t.wheel.lastDuration.nanos ≤ 2 * t.content.cost.nanos
  /-- It ended, as it was reckoned, and content is taken to be busy, before five times the longest
  duration on the wire. -/
  bounded : ∀ h tab t last, Passes build settings steps h → h.tabs.get? tab = some t →
    t.wheel.lastProcessed = some last →
    last.nanos + t.wheel.lastDuration.nanos ≤ 5 * Duration.wireLimit
  /-- Where the clock has the time that content takes, no sum overflows when an event that is due
  is handled, however far the clock is, and the end that is reckoned stays below that. -/
  handles : ∀ h e h' w t, Passes build settings steps h → h.takeTask? = some (.deliver e, h') →
    e.request = .wheel w → h.tabs.get? e.tab = some t → ∀ nextIsWheel (s : Stage Headless),
    s.content.cost = t.content.cost →
    s.clock.nanos + t.content.cost.nanos * (t.wheel.heldBack + 1) ≤ Duration.limit →
    (WheelBatch.handle w nextIsWheel (t.wheel, s)).fault = none ∧
      ∀ last, (WheelBatch.handle w nextIsWheel (t.wheel, s)).state.1.lastProcessed = some last →
        last.nanos ≤ 5 * Duration.wireLimit
  /-- If a step is stopped as durations overflow, it is the clock that does. -/
  clock : ∀ before step after o, steps = before ++ step :: after →
    (applyAll build before (start settings)).stop = none →
    apply build step (applyAll build before (start settings)).host = .ok o →
    o.fault = some .durationOverflow →
    ClockOverflows step (applyAll build before (start settings)).host o.state
  /-- So it is behind the last step. -/
  last : (applyAll build steps (start settings)).stop = none →
    (finish build (applyAll build steps (start settings)).host).fault = some .durationOverflow →
    (finish build (applyAll build steps (start settings)).host).state.OutOfTime

theorem Passes.keepsTime (hp : Passes build settings steps h)
    (limited : ∀ step ∈ steps, step.IsLimited) : h.KeepsTime := by
  obtain ⟨before, evs, here, ends, within, fault, rfl⟩ := hp
  have first := keepsTime_applyAll build (keepsTime_new settings .zero {})
    (fun step hm => limited step (here.subset hm)) ends
  exact (keepsTime_runs build first fun ev hm =>
    limited_of_mem_idleEvents build (within.subset hm)).1 fault

/-- In a replay of a script, however long it is, the times that a tab remembers of its wheel events
stay small, and of all sums of durations only the clock can overflow. -/
theorem keeps_time (build : Build) (settings : Settings) {bytes : List UInt8} {steps : List Step}
    (parsed : Script.parse bytes = .ok steps) : KeepsTime build settings steps := by
  have limited := Script.limited_of_parse parsed
  have reached : ∀ {before}, before <+: steps →
      (applyAll build before (start settings)).stop = none →
      (applyAll build before (start settings)).host.KeepsTime := fun here ends =>
    keepsTime_applyAll build (keepsTime_new settings .zero {})
      (fun step hm => limited step (here.subset hm)) ends
  refine ⟨fun h tab t hp ht => ?_, fun h tab t last hp ht hl => ?_, ?_, ?_, fun ends late => ?_⟩
  · exact ((hp.keepsTime limited).tabs tab t ht).wheel.brief
  · obtain ⟨slow, timely⟩ := (hp.keepsTime limited).tabs tab t ht
    have busy := timely.busyUntil_le slow
    rwa [WheelBatch.busyUntil, hl] at busy
  · intro h e h' w t hp due wheel ht nextIsWheel s same room
    have times := hp.keepsTime limited
    obtain ⟨slow, timely⟩ := times.tabs e.tab t ht
    rw [← same] at slow timely room
    have early := times.early (deed?_runOne due) e w rfl wheel
    have ends := WheelBatch.fault_handle (s := (t.wheel, s)) timely slow early nextIsWheel room
    refine ⟨ends, fun last hl => ?_⟩
    have after := ((WheelBatch.paced_handle (s := (t.wheel, s)) timely slow early
      nextIsWheel).2 ends).early last hl
    dsimp only at after
    omega
  · rintro before step after o rfl ends ho late
    exact (keepsTime_apply (reached (List.prefix_append ..) ends)
      (limited step (List.mem_append_right _ List.mem_cons_self)) ho).2 late
  · rw [finish, start_eq_runs] at late ⊢
    exact (keepsTime_runs build (reached List.prefix_rfl ends) fun ev hm =>
      limited_of_mem_idleEvents build hm).2 late

/-- A script with a tab whose content takes a millisecond, and two wheel events for it. -/
def twoWheels : List UInt8 :=
  ("\x7b\"step\":\"create_tab\",\"tab\":7,\"dispatch_cost\":1\x7d\n" ++
    "\x7b\"step\":\"send\",\"tab\":7,\"message\":\x7b\"type\":\"wheel\",\"timestamp\":0.5\x7d\x7d\n"
    ++ "\x7b\"step\":\"send\",\"tab\":7,\"message\":\x7b\"type\":\"wheel\"\x7d\x7d").toUTF8.toList

/-- The host once the first task is done after some steps. -/
def firstDone (steps : List Step) : Outcome Effect (Host Headless) :=
  (applyAll .checked steps (start {})).host.runs .checked [.runOne]

/-- The first event is measured, since the second one waits: content is done with it a millisecond
after the timestamp. -/
theorem keeps_time_twoWheels : ∃ steps, Script.parse twoWheels = .ok steps ∧
    KeepsTime .checked {} steps ∧ ∃ h, Passes .checked {} steps h ∧
      (h.tabs.get? ⟨7⟩).map (fun t => (t.wheel.lastDuration, t.wheel.lastProcessed)) =
        some (.ofNanos 1000000, some (.ofNanos 1500000)) := by
  -- the script is parsed only once
  have all : ((Script.parse twoWheels).toOption.map fun steps =>
      decide ((applyAll .checked steps (start {})).stop = none ∧
        (firstDone steps).fault = none ∧
        ((firstDone steps).state.tabs.get? ⟨7⟩).map
          (fun t => (t.wheel.lastDuration, t.wheel.lastProcessed)) =
            some (.ofNanos 1000000, some (.ofNanos 1500000)))) = some true := by decide +kernel
  cases parsed : Script.parse twoWheels with
  | error e =>
    rw [parsed] at all
    cases all
  | ok steps =>
    rw [parsed] at all
    obtain ⟨ends, fault, measured⟩ := of_decide_eq_true (Option.some.inj all)
    have passes : Passes .checked {} steps (firstDone steps).state :=
      ⟨steps, [.runOne], List.prefix_rfl, ends, ⟨_, rfl⟩, fault, rfl⟩
    exact ⟨steps, rfl, keeps_time .checked {} parsed, _, passes, measured⟩

end Replay

end TabHost
