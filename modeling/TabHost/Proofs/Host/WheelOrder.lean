import TabHost.Proofs.Host.Fifo
import TabHost.Proofs.Host.History
import TabHost.Proofs.Host.Wheel
import TabHost.Proofs.Tab.WheelRuns

/-!
# Wheel events before other input

A tab may hold a wheel event back while another one comes first on some channel, among those of
its priority. Other input of the same channel and priority waits behind that one. So whatever is
delivered to the tab but wheel events finds none held back, as long as no wheel event for the
tab comes first elsewhere (`RunQueue.AwaitsWheelApart`), and content was handed all that the tab
took in before (`Host.wheels_before_other_input`).

If one does, other input may come between: nothing dispatches what is held back then, and
content sees it behind the other input (`Host.wheel_held_behind_press`).
-/

set_option linter.unusedSectionVars false

namespace TabHost

namespace RunQueue

variable {q r : RunQueue} {e : Envelope}

/-- Every envelope waits at its own priority. -/
def Placed (q : RunQueue) : Prop := ∀ p, ∀ e ∈ envelopesOf (q.tasks p), e.priority = p

/-- The first envelope of some other channel or priority than those of an envelope is a wheel
event for the same tab. -/
def AwaitsWheelApart (q : RunQueue) (e : Envelope) : Prop :=
  ∃ p c w, q.first? p c = some w ∧ w.tab = e.tab ∧ w.request.isWheel = true ∧
    (p ≠ e.priority ∨ c ≠ e.channel)

/-- The envelope that is due is the first of its channel, at its own priority. -/
theorem first?_of_due (hq : q.Placed) (h : q.pop? = some (.deliver e, r)) :
    q.first? e.priority e.channel = some e := by
  have first : ∀ {rest : List Task}, (Task.deliver e :: rest).findSome? (envelopeOn? e.channel) =
      some e := by
    intro rest
    simp [envelopeOn?]
  unfold pop? at h
  split at h
  · next hi =>
    cases h
    have here : e.priority = .input :=
      hq .input e (by simp [tasks, hi, envelopesOf, Task.envelope?])
    rw [here, RunQueue.first?, tasks, hi]
    exact first
  · next hi hn =>
    cases h
    have here : e.priority = .normal :=
      hq .normal e (by simp [tasks, hn, envelopesOf, Task.envelope?])
    rw [here, RunQueue.first?, tasks, hn]
    exact first
  · cases h

end RunQueue

namespace Host

variable {σ : Type} [Content σ] {h h' : Host σ} {ev : Event σ} {tab : TabId}

/-! ## Where envelopes wait -/

theorem placed_pullInbox (hq : h.shared.queue.Placed) : h.pullInbox.shared.queue.Placed := by
  intro p e he
  rw [tasks_pullInbox, envelopesOf_append, envelopesOf_deliver] at he
  rcases List.mem_append.mp he with he | he
  · exact hq p e he
  · simpa using (List.mem_filter.mp he).2

theorem placed_waitingBeside (hq : h.shared.queue.Placed) (ev : Event σ) :
    (h.waitingBeside ev).Placed := by
  cases ev with
  | runOne =>
    intro p e he
    refine placed_pullInbox hq p e ?_
    rw [tasks_pullInbox_eq, envelopesOf_append]
    exact List.mem_append_right _ he
  | _ => exact hq

theorem queue_dropTab (tab : TabId) (h : Host σ) :
    (h.dropTab tab).state.shared.queue = h.shared.queue := by
  have same : ∀ s : Seat σ, (Seat.destroyWindow s).state.shared.queue = s.shared.queue := by
    intro s
    unfold Seat.destroyWindow Seat.destroyContent
    split <;> rfl
  unfold dropTab onTab
  cases h.tabs.get? tab with
  | none => rfl
  | some t => exact same { tab := t, shared := h.shared }

/-- The work that waits goes on waiting when all tabs are dropped. -/
theorem queue_shutdown (h : Host σ) : h.shutdown.state.shared.queue = h.shared.queue := by
  have all : ∀ (tabs : List TabId) (h : Host σ),
      (h.dropTabs tabs).state.shared.queue = h.shared.queue := by
    intro tabs
    induction tabs with
    | nil => exact fun _ => rfl
    | cons first rest ih =>
      exact fun h => Outcome.andThen_preserves
        (P := fun h' : Host σ => h'.shared.queue = h.shared.queue) (queue_dropTab first h)
        fun h' hh' => (ih h').trans hh'
  exact all h.tabs.keys h

theorem placed_step (build : Build) (hs : h.Sound) (hq : h.shared.queue.Placed) (ev : Event σ) :
    (h.step build ev).state.shared.queue.Placed := by
  by_cases ne : ev = .shutdown
  · subst ne
    rw [step, queue_shutdown]
    exact hq
  · intro p e he
    rw [envelopesOf_step build hs ne] at he
    exact placed_waitingBeside hq ev p e he

theorem placed_new (settings : Settings) (clock : Duration) (surfaces : Surfaces) :
    (new settings clock surfaces : Host σ).shared.queue.Placed := by
  intro p e he
  cases p <;> cases he

theorem Reachable.placed {build : Build} (hr : h.Reachable build) : h.shared.queue.Placed := by
  have both : h.Sound ∧ h.shared.queue.Placed := by
    refine Reachable.induct (P := fun h => h.Sound ∧ h.shared.queue.Placed) ?_ ?_ hr
    · intro settings clock surfaces
      exact ⟨sound_new settings clock surfaces, placed_new settings clock surfaces⟩
    · intro h ev hp _
      exact ⟨sound_step build hp.1 ev, placed_step build hp.1 hp.2 ev⟩
  exact both.2

/-! ## What is due -/

/-- If the first envelope of some channel is a wheel event for a tab, but what is due for the
tab is not, then it waits apart. -/
theorem awaitsWheelApart_of_due {build : Build} (hr : h.Reachable build) {e : Envelope}
    (due : h.takeTask? = some (.deliver e, h')) (hw : e.request.isWheel = false)
    (awaits : h.shared.queue.AwaitsWheel e.tab) :
    h.pullInbox.shared.queue.AwaitsWheelApart e := by
  obtain ⟨⟨task, r⟩, hpop, heq⟩ := Option.map_eq_some_iff.mp due
  obtain rfl : task = .deliver e := congrArg Prod.fst heq
  obtain ⟨p, c, w, hfirst, htab, hwheel⟩ :=
    awaits.of_growsTo (RunQueue.GrowsTo.deliver_all h.inbox h.shared.queue)
  refine ⟨p, c, w, hfirst, htab, hwheel, Classical.byContradiction fun same => ?_⟩
  obtain ⟨rfl, rfl⟩ : p = e.priority ∧ c = e.channel := by simpa using same
  cases hfirst.symm.trans (RunQueue.first?_of_due (placed_pullInbox hr.placed) hpop)
  rw [hw] at hwheel
  cases hwheel

/-- Content is handed no wheel event when something else is delivered. -/
theorem wheelCalls_runOne (build : Build) (hs : h.Sound) {e : Envelope}
    (due : h.takeTask? = some (.deliver e, h')) (hw : e.request.isWheel = false) :
    wheelCalls tab (h.step build .runOne).trace = [] := by
  cases stepCase build hs .runOne with
  | quiet _ _ _ trace =>
    rw [trace]
    rfl
  | created _ _ _ _ _ event =>
    rcases event with ⟨c, hc⟩ | ⟨c, heard, hc⟩ <;> cases hc
  | acted d t deed htab _ acts =>
    have act : d.act = .request e := by
      rw [deed?, due] at deed
      cases deed
      rfl
    rw [acts.trace]
    exact Seat.wheelCalls_act build (s := { tab := t, shared := d.around }) (hs _ _ htab).1
      (by rw [act]; exact hw)
  | shut event => cases event

/-- A host that holds a tab was not shut down, unless a new tab of the id was created. -/
theorem not_shutdown_of_hosted (build : Build) {evs : List (Event σ)} (hs : h.Sound)
    (hu : Untouched tab (h.runs build evs).trace) (hf : (h.runs build evs).fault = none)
    {u : Tab σ} (hosted : (h.runs build evs).state.tabs.get? tab = some u) : .shutdown ∉ evs := by
  intro hm
  obtain ⟨before, after, rfl⟩ := List.append_of_mem hm
  rw [runs_append] at hu hf hosted
  obtain ⟨first, later⟩ := Outcome.fault_andThen_eq_none_iff.mp hf
  rw [Outcome.trace_andThen first] at hu
  rw [Outcome.state_andThen first] at hosted
  have sound : (h.runs build before).state.Sound :=
    runs_preserves (P := Sound) (fun _ ev _ hs _ => sound_step build hs ev) hs first
  generalize (h.runs build before).state = g at *
  have shuts := shuts_shutdown build sound
  have stopped : (g.step build .shutdown).fault = none := shuts.fault
  have untouched := (untouched_append.mp hu).2
  rw [runs, Outcome.trace_andThen stopped] at untouched
  rw [runs, Outcome.state_andThen stopped,
    (absent_runs build after (sound_step build sound .shutdown) (shuts.tabs tab)
      (untouched_append.mp untouched).2).2] at hosted
  cases hosted

/-- When something else than a wheel event is delivered to a tab, content was handed all wheel
events that the tab took in before, in their runs, and is handed none just then; as long as no
wheel event for the tab comes first on another channel or at the other priority. -/
theorem wheels_before_other_input (build : Build) {h h' : Host σ} (hr : h.Reachable build)
    {tab : TabId} {t : Tab σ} (hosted : h.tabs.get? tab = some t)
    (fresh : t.wheel.pending = none) {evs : List (Event σ)}
    (untouched : Untouched tab (h.runs build evs).trace)
    (fault : (h.runs build evs).fault = none)
    (live : (h.runs build evs).state.isLive tab = true) {e : Envelope} (named : e.tab = tab)
    (due : (h.runs build evs).state.takeTask? = some (.deliver e, h'))
    (other : e.request.isWheel = false)
    (apart : ¬(h.runs build evs).state.pullInbox.shared.queue.AwaitsWheelApart e) :
    (∃ u, (h.runs build evs).state.tabs.get? tab = some u ∧ u.wheel.pending = none) ∧
      (∃ runs : List WheelRun, runs.flatMap WheelRun.events =
          (h.turnsOf build tab evs).filterMap (fun x => x.act.wheel?) ∧
        wheelCalls tab (h.runs build evs).trace = runs.map fun run => .wheel run.total) ∧
      wheelCalls tab ((h.runs build evs).state.step build .runOne).trace = [] := by
  have reachable := hr.runs fault
  obtain ⟨u, hu, ulive⟩ := exists_of_isLive live
  have tells := tells_runs build evs hr.sound hosted untouched
  have turned : (t.turns build (h.turnsOf build tab evs)).state = u := by
    rcases tells.tab with hu' | ⟨hu', -⟩
    · exact Option.some.inj (hu'.symm.trans hu)
    · cases hu'.symm.trans hu
  have running := not_shutdown_of_hosted build hr.sound untouched fault hu
  obtain ⟨sound, goesBy⟩ := hr.sound tab t hosted
  obtain ⟨tlive, spared⟩ := Tab.spared_of_live build sound
    (fun x hx => act_ne_drop_of_mem_turnsOf running hx) (tells.fault fault)
    (by rw [turned]; exact ulive)
  obtain ⟨runs, held, divides⟩ :=
    Tab.divides_turns build sound tlive fresh spared (tells.fault fault)
  rw [turned] at divides
  have pending : u.wheel.pending = none := by
    rcases reachable.wheelsFollowed tab u hu with idle | ⟨-, awaits⟩
    · exact idle.pending
    · exact absurd (awaitsWheelApart_of_due reachable due other (named ▸ awaits)) apart
  have none_held : held = none := by
    have := divides.pending
    rw [pending] at this
    cases held with
    | none => rfl
    | some run => cases this
  refine ⟨⟨u, hu, pending⟩, ⟨runs, ?_, ?_⟩, wheelCalls_runOne build reachable.sound due other⟩
  · rw [← divides.events, none_held]
    simp
  · rw [← divides.dispatched, wheelCalls, wheelCalls, ← tells.trace, goesBy.id,
      callsOf_filter_isOf]

/-- A host with a tab whose content takes ten milliseconds for each event. -/
def slow : Host Headless :=
  ((new {} .zero {}).performs .checked
    [.event (.create { value := 7 } { cost := .ofNanos 10000000 })]).state

theorem reachable_slow : slow.Reachable .checked := (Reachable.new {} .zero {}).performs rfl

/-- A press of a button. -/
def press : ButtonEvent := { pointer := ⟨1⟩, button := .primary, action := .down, position := {} }

/-- A wheel event at a time in nanoseconds. -/
def wheelAt (time : UInt64) : Envelope :=
  { tab := { value := 7 }, request := .wheel { timestamp := .ofNanos time } }

def pressAt (priority : Priority) : Envelope :=
  { tab := { value := 7 }, priority := priority, request := .button press }

/-- Three wheel events, a millisecond apart, some of which are delivered, and a button at some
priority behind them. -/
def scrollAndPress (ran : Nat) (priority : Priority) : List (Event Headless) :=
  [.post (wheelAt 0), .post (wheelAt 1000000), .post (wheelAt 2000000)] ++
    List.replicate ran .runOne ++
    [.post (pressAt priority)]

/-- If the button waits behind the wheel events, content was handed them all before. -/
theorem wheels_before_other_input_press :
    (∃ u, (slow.runs .checked (scrollAndPress 3 .normal)).state.tabs.get? ⟨7⟩ = some u ∧
      u.wheel.pending = none) ∧
    (∃ runs : List WheelRun, runs.flatMap WheelRun.events =
        (slow.turnsOf .checked ⟨7⟩ (scrollAndPress 3 .normal)).filterMap (fun x => x.act.wheel?) ∧
      wheelCalls ⟨7⟩ (slow.runs .checked (scrollAndPress 3 .normal)).trace =
        runs.map fun run => .wheel run.total) ∧
    wheelCalls ⟨7⟩ ((slow.runs .checked (scrollAndPress 3 .normal)).state.step .checked
      .runOne).trace = [] := by
  have hosted : (slow.tabs.get? ⟨7⟩).any (fun t => t.wheel.pending.isNone) = true := by rfl
  obtain ⟨t, ht, fresh⟩ := (Option.any_eq_true ..).mp hosted
  have due : (slow.runs .checked (scrollAndPress 3 .normal)).state.takeTask?.map Prod.fst =
    some (.deliver (pressAt .normal)) := by rfl
  obtain ⟨⟨task, h'⟩, due, rfl⟩ := Option.map_eq_some_iff.mp due
  refine wheels_before_other_input .checked reachable_slow ht (Option.isNone_iff_eq_none.mp fresh)
    ?_ (by rfl) (by rfl) rfl due rfl ?_
  · have created : (slow.runs .checked (scrollAndPress 3 .normal)).trace.all
        (fun e => !e.creates ⟨7⟩) = true := by rfl
    exact fun e he => by simpa using List.all_eq_true.mp created e he
  · rintro ⟨p, c, w, hw, -, hwheel, -⟩
    have others : ∀ p c, (RunQueue.first?
        (slow.runs .checked (scrollAndPress 3 .normal)).state.pullInbox.shared.queue p c).all
          (fun w => !w.request.isWheel) = true := by
      intro p c
      cases p <;> cases c <;> rfl
    have := others p c
    rw [hw, Option.all_some, hwheel] at this
    cases this

/-- If it goes before the last of them, it is handed to content while the second one is held
back. -/
theorem wheel_held_behind_press : ¬∀ (h h' : Host Headless) (tab : TabId) (t : Tab Headless)
    (e : Envelope) (b : ButtonEvent), h.Reachable .checked → h.tabs.get? tab = some t →
      h.takeTask? = some (.deliver e, h') → e.tab = tab →
      .pointer (.button b) ∈ callsOf tab (h.step .checked .runOne).trace →
      t.wheel.pending = none := by
  intro claim
  have hosted : ((slow.runs .checked (scrollAndPress 2 .input)).state.tabs.get? ⟨7⟩).any
    (fun t => t.wheel.pending.isSome) = true := by rfl
  obtain ⟨t, ht, held⟩ := (Option.any_eq_true ..).mp hosted
  have due : (slow.runs .checked (scrollAndPress 2 .input)).state.takeTask?.map Prod.fst =
    some (.deliver (pressAt .input)) := by rfl
  obtain ⟨⟨task, h'⟩, due, rfl⟩ := Option.map_eq_some_iff.mp due
  have handed : callsOf ⟨7⟩ ((slow.runs .checked (scrollAndPress 2 .input)).state.step .checked
    .runOne).trace = [.pointer (.button press)] := by rfl
  have none := claim _ h' ⟨7⟩ t _ press (reachable_slow.runs (by rfl)) ht due rfl
    (by rw [handed]; exact List.mem_singleton_self _)
  rw [none] at held
  cases held

end Host

end TabHost
