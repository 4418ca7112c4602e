import TabHost.Proofs.Host.Driving
import TabHost.Proofs.Host.Shutdown

/-!
# Checked and unchecked builds

A checked build stops where the protocol is broken, and where there are too many blockers to
count; an unchecked one goes on (`Fault.isStrict`). Until then the two do the same
(`Outcome.Agrees`), by every operation of a tab (`Seat.agrees_act`) and of a host
(`Host.agrees_performs`).

Where a checked build stops at a violation, an unchecked one leaves everything as it is but that
the envelope is gone that broke the protocol (`Host.Consumes`), and does what is left to do as if
that envelope had never been there (`Host.lenient`).
-/

set_option linter.unusedSectionVars false

namespace TabHost

/-- Whether only a checked build stops so. -/
def Fault.isStrict : Fault → Bool
  | .violation _ _ => true
  | .durationOverflow => false
  | .counterOverflow => true

/-! ## Outcomes of both builds -/

namespace Outcome

variable {ε α β : Type} {c u : Outcome ε α}

/-- Whether an operation was stopped as only a checked build stops it. -/
def isStrict (o : Outcome ε α) : Bool := o.fault.any Fault.isStrict

/-- An unchecked build does what a checked one does, unless that stops as only it does. -/
structure Agrees (c u : Outcome ε α) : Prop where
  eq : c.isStrict = false → u = c

theorem isStrict_of_fault_eq_none (h : c.fault = none) : c.isStrict = false := by
  rw [isStrict, h]
  rfl

theorem Agrees.refl (o : Outcome ε α) : o.Agrees o := ⟨fun _ => rfl⟩

theorem Agrees.of_isStrict (h : c.isStrict = true) : c.Agrees u :=
  ⟨fun lax => by cases h.symm.trans lax⟩

theorem agrees_violation (tab : TabId) (v : Violation) (s : α) :
    (violation .checked tab v s : Outcome ε α).Agrees (violation .unchecked tab v s) :=
  .of_isStrict rfl

theorem Agrees.map (h : c.Agrees u) (f : α → β) : (c.map f).Agrees (u.map f) :=
  ⟨fun lax => by rw [h.eq lax]⟩

theorem Agrees.andThen {f g : α → Outcome ε α} (h : c.Agrees u) (hf : ∀ s, (f s).Agrees (g s)) :
    (c.andThen f).Agrees (u.andThen g) := by
  refine ⟨fun lax => ?_⟩
  cases hc : c.fault with
  | some e =>
    rw [andThen_of_fault hc] at lax ⊢
    rw [h.eq lax, andThen_of_fault hc]
  | none =>
    have rest : (f c.state).isStrict = false := by
      rwa [isStrict, fault_andThen hc] at lax
    rw [h.eq (isStrict_of_fault_eq_none hc)]
    exact andThen_congr ((hf c.state).eq rest)

end Outcome

variable {σ : Type} [Content σ]

/-! ## Tabs -/

namespace Seat

theorem agrees_addBlocker (s : Seat σ) :
    (addBlocker .checked s).Agrees (addBlocker .unchecked s) := by
  unfold addBlocker
  split
  · refine Outcome.Agrees.map ?_ _
    unfold Gate.addBlocker
    split
    · exact .of_isStrict rfl
    · exact ⟨fun _ => by simp⟩
  · exact .refl _

theorem agrees_removeBlocker (s : Seat σ) :
    (removeBlocker .checked s).Agrees (removeBlocker .unchecked s) := by
  unfold removeBlocker
  split
  · split
    · exact Outcome.agrees_violation ..
    · exact .refl _
    · exact .refl _
  · exact .refl _

theorem agrees_destroy (s : Seat σ) : (destroy .checked s).Agrees (destroy .unchecked s) := by
  unfold destroy
  split
  · exact .refl _
  · exact Outcome.agrees_violation ..

theorem agrees_handle (e : Envelope) (s : Seat σ) :
    (handle .checked e s).Agrees (handle .unchecked e s) := by
  unfold handle
  split
  · unfold handleLive
    split
    · exact agrees_destroy s
    all_goals exact .refl _
  · unfold handleDying
    split
    · exact agrees_destroy s
    · exact .refl _
    · exact Outcome.agrees_violation ..
    · exact .refl _

/-- Whatever is done to a tab, an unchecked build does as a checked one, unless that stops. -/
theorem agrees_act (a : Act) (s : Seat σ) : (act .checked a s).Agrees (act .unchecked a s) := by
  cases a with
  | request e => exact agrees_handle e s
  | addBlocker => exact agrees_addBlocker s
  | removeBlocker => exact agrees_removeBlocker s
  | destroy => exact agrees_destroy s
  | _ => exact .refl _

end Seat

/-! ## Hosts -/

namespace Host

variable {h h' : Host σ} {tab : TabId} {ev : Event σ} {v : Violation}

theorem agrees_onTab (tab : TabId) {op op' : Operation σ} (hop : ∀ s, (op s).Agrees (op' s))
    (h : Host σ) : (h.onTab tab op).Agrees (h.onTab tab op') := by
  unfold onTab
  split
  · exact .refl _
  · exact (hop _).map _

theorem agrees_onHosted (tab : TabId) (v : Violation) {op op' : Operation σ}
    (hop : ∀ s, (op s).Agrees (op' s)) (h : Host σ) :
    (h.onHosted .checked tab v op).Agrees (h.onHosted .unchecked tab v op') := by
  unfold onHosted
  split
  · exact agrees_onTab tab hop h
  · exact Outcome.agrees_violation ..

theorem agrees_dropUnrouted (e : Envelope) (h : Host σ) :
    (h.dropUnrouted .checked e).Agrees (h.dropUnrouted .unchecked e) := by
  unfold dropUnrouted
  split
  · exact .refl _
  · exact Outcome.agrees_violation ..
  · exact .refl _
  · exact Outcome.agrees_violation ..

theorem agrees_runTask (task : Task) (h : Host σ) :
    (h.runTask .checked task).Agrees (h.runTask .unchecked task) := by
  unfold runTask
  split
  · split
    · exact (agrees_onTab _ (Seat.agrees_act (.request _)) h).andThen fun _ => .refl _
    · exact agrees_dropUnrouted _ h
  · exact .refl _

theorem agrees_step (ev : Event σ) (h : Host σ) :
    (h.step .checked ev).Agrees (h.step .unchecked ev) := by
  cases ev with
  | runOne =>
    simp only [step, runOne]
    split
    · exact .refl _
    · exact agrees_runTask _ _
  | addBlocker tab => exact agrees_onHosted tab _ (Seat.agrees_act .addBlocker) h
  | removeBlocker tab => exact agrees_onHosted tab _ (Seat.agrees_act .removeBlocker) h
  | destroy tab => exact agrees_onHosted tab _ (Seat.agrees_act .destroy) h
  | _ => exact .refl _

theorem agrees_runs (evs : List (Event σ)) (h : Host σ) :
    (h.runs .checked evs).Agrees (h.runs .unchecked evs) := by
  induction evs generalizing h with
  | nil => exact .refl _
  | cons ev rest ih => exact (agrees_step ev h).andThen ih

/-- Events that end in a checked build are the same in an unchecked one. -/
theorem runs_eq_of_ends {evs : List (Event σ)} (hf : (h.runs .checked evs).fault = none) :
    h.runs .unchecked evs = h.runs .checked evs :=
  (agrees_runs evs h).eq (Outcome.isStrict_of_fault_eq_none hf)

/-- A run until idle is the same events in both builds. -/
theorem start_eq_runs_idleEvents (build : Build) (h : Host σ) :
    h.start build = h.runs build (h.idleEvents .unchecked) := by
  cases build with
  | unchecked => exact start_eq_runs .unchecked h
  | checked =>
    rw [start_eq_runs, idleEvents, idleEvents, runs_append, runs_append]
    cases hf : (h.runs .checked (List.replicate (h.work + 1) .runOne)).fault with
    | some f => rw [Outcome.andThen_of_fault hf, Outcome.andThen_of_fault hf]
    | none => rw [runs_eq_of_ends hf]

theorem perform_eq_runs_eventsOf (build : Build) (op : Op σ) (h : Host σ) :
    h.perform build op = h.runs build (h.eventsOf .unchecked op) := by
  cases op with
  | event ev => exact (runs_singleton build ev h).symm
  | runUntilIdle => exact start_eq_runs_idleEvents build h

theorem agrees_perform (op : Op σ) (h : Host σ) :
    (h.perform .checked op).Agrees (h.perform .unchecked op) := by
  rw [perform_eq_runs_eventsOf, perform_eq_runs_eventsOf]
  exact agrees_runs _ h

theorem agrees_performs (ops : List (Op σ)) (h : Host σ) :
    (h.performs .checked ops).Agrees (h.performs .unchecked ops) := by
  induction ops generalizing h with
  | nil => exact .refl _
  | cons op rest ih => exact (agrees_perform op h).andThen ih

/-- Operations are the same events in both builds, as far as they come to their ends. -/
theorem performs_eq_runs_eventsOfAll (build : Build) (ops : List (Op σ)) (h : Host σ) :
    h.performs build ops = h.runs build (h.eventsOfAll .unchecked ops) := by
  cases build with
  | unchecked => exact performs_eq_runs .unchecked ops h
  | checked =>
    induction ops generalizing h with
    | nil => rfl
    | cons op rest ih =>
      rw [performs, eventsOfAll, runs_append, perform_eq_runs_eventsOf]
      cases hf : (h.runs .checked (h.eventsOf .unchecked op)).fault with
      | some f => rw [Outcome.andThen_of_fault hf, Outcome.andThen_of_fault hf]
      | none =>
        rw [perform_eq_runs_eventsOf .unchecked, runs_eq_of_ends hf]
        exact Outcome.andThen_congr (ih _)

/-! ## Runs that wait for envelopes -/

theorem agrees_start (h : Host σ) : (h.start .checked).Agrees (h.start .unchecked) :=
  agrees_perform .runUntilIdle h

theorem agrees_resume (h : Host σ) : (h.resume .checked).Agrees (h.resume .unchecked) := by
  unfold resume
  split
  · exact .refl _
  · exact agrees_start _

theorem agrees_feed (batches : List (List Envelope)) {c u : Outcome Effect (List Poll × Host σ)}
    (agrees : c.Agrees u) : (feed .checked batches c).Agrees (feed .unchecked batches u) := by
  induction batches generalizing c u with
  | nil => exact agrees
  | cons batch rest ih =>
    cases strict : c.isStrict with
    | true =>
      cases hf : c.fault with
      | none => cases (Outcome.isStrict_of_fault_eq_none hf).symm.trans strict
      | some f =>
        rw [feed_of_fault .checked hf]
        exact .of_isStrict strict
    | false =>
      rw [agrees.eq strict, feed, feed]
      split
      · exact .refl c
      · exact ih ((Outcome.Agrees.refl c).andThen fun s => (agrees_resume _).map _)

theorem agrees_drive (batches : List (List Envelope)) (h : Host σ) :
    (h.drive .checked batches).Agrees (h.drive .unchecked batches) :=
  agrees_feed batches ((agrees_start h).map _)

/-! ## Violations -/

/-- The host without the task that an event takes out. -/
def consumed (h : Host σ) : Event σ → Host σ
  | .runOne =>
    match h.takeTask? with
    | none => h.pullInbox
    | some r => r.2
  | _ => h

/-- All is as it was, but that a tab's envelope is gone, if the event was to deliver it. -/
structure Consumes (h : Host σ) (tab : TabId) (ev : Event σ) (h' : Host σ) : Prop where
  settings : h'.settings = h.settings
  /-- The tabs, their content included. -/
  tabs : h'.tabs = h.tabs
  retired : h'.retired = h.retired
  clock : h'.shared.clock = h.shared.clock
  surfaces : h'.shared.surfaces = h.shared.surfaces
  /-- The other envelopes and the passes of all deletes wait where they did. -/
  work : ev = .runOne → ∃ e p, e.tab = tab ∧ ∀ q, h.pullInbox.shared.queue.tasks q =
    if q = p then .deliver e :: h'.pullInbox.shared.queue.tasks q
    else h'.pullInbox.shared.queue.tasks q
  same : ev ≠ .runOne → h' = h

theorem consumed_runOne {task : Task} (ht : h.takeTask? = some (task, h')) :
    h.consumed .runOne = h' := by
  rw [consumed, ht]

theorem consumed_of_ne (ne : ev ≠ .runOne) : h.consumed ev = h := by
  cases ev with
  | runOne => exact absurd rfl ne
  | _ => rfl

/-- Taking a task out concerns the work that waits, and nothing else. -/
theorem rest_of_takeTask? {task : Task} (ht : h.takeTask? = some (task, h')) :
    h'.settings = h.settings ∧ h'.retired = h.retired ∧ h'.shared.clock = h.shared.clock := by
  obtain ⟨r, -, heq⟩ := Option.map_eq_some_iff.mp ht
  cases heq
  exact ⟨rfl, rfl, rfl⟩

/-- The task that is due waits before all others of one of the priorities. -/
theorem tasks_of_takeTask? {task : Task} (ht : h.takeTask? = some (task, h')) :
    ∃ p, ∀ q, h.pullInbox.shared.queue.tasks q =
      if q = p then task :: h'.pullInbox.shared.queue.tasks q
      else h'.pullInbox.shared.queue.tasks q := by
  obtain ⟨⟨t, r⟩, hpop, heq⟩ := Option.map_eq_some_iff.mp ht
  cases heq
  have pulled : ∀ q, ({ h.pullInbox with shared := { h.shared with queue := r } } :
      Host σ).pullInbox.shared.queue.tasks q = r.tasks q := fun q => by
    rw [tasks_pullInbox]
    exact List.append_nil _
  simp only [pulled]
  unfold RunQueue.pop? at hpop
  split at hpop
  · next first =>
    cases hpop
    exact ⟨.input, fun q => by cases q <;> simp [RunQueue.tasks, first]⟩
  · next none first =>
    cases hpop
    exact ⟨.normal, fun q => by cases q <;> simp [RunQueue.tasks, first, none]⟩
  · cases hpop

/-- What is done to a tab against the protocol does nothing to it. -/
theorem onTab_of_breach? {t : Tab σ} {a : Act} (ht : h.tabs.get? tab = some t)
    (hb : t.breach? a = some v) : h.onTab tab (Seat.act .unchecked a) = .ok h := by
  rw [onTab_of_some ht, Seat.act_of_breach? .unchecked hb]
  show Outcome.ok { h with tabs := h.tabs.insert tab t } = _
  rw [Table.insert_of_get?_eq_some ht]

theorem onHosted_of_breach? (w : Violation) {a : Act}
    (hb : h.breach? { tab := tab, act := a, around := h.shared } = some v) :
    h.onHosted .unchecked tab w (Seat.act .unchecked a) = .ok h := by
  unfold onHosted
  split
  · next there =>
    obtain ⟨t, ht⟩ := Option.isSome_iff_exists.mp there
    rw [breach?, ht] at hb
    exact onTab_of_breach? ht hb
  · rfl

/-- What is against the protocol was asked for. -/
theorem asked_of_breach? {d : Deed} (hb : h.breach? d = some v) : (∃ e, d.act = .request e) ∨
    d.act = .addBlocker ∨ d.act = .removeBlocker ∨ d.act = .destroy := by
  obtain ⟨tab, a, around⟩ := d
  unfold breach? Tab.breach? at hb
  cases a with
  | request e => exact Or.inl ⟨e, rfl⟩
  | addBlocker | removeBlocker | destroy => simp
  | _ =>
    split at hb
    · split at hb <;> cases hb
    · cases hb

/-- No pass of a delete is against the protocol. -/
theorem eq_deliver_of_breach? {task : Task} {around : Shared}
    (hb : h.breach? { tab := task.tab, act := task.act, around := around } = some v) :
    ∃ e, task = .deliver e := by
  cases task with
  | deliver e => exact ⟨e, rfl⟩
  | delete d => simpa [Task.act] using asked_of_breach? hb

/-- A task that is against the protocol does nothing. -/
theorem runTask_of_breach? (alive : ∀ tab t, h.tabs.get? tab = some t → t.state ≠ .deleted)
    {task : Task} {around : Shared}
    (hb : h.breach? { tab := task.tab, act := task.act, around := around } = some v) :
    h.runTask .unchecked task = .ok h := by
  cases ht : h.tabs.get? task.tab with
  | some t =>
    rw [breach?, ht] at hb
    have unreaped : h.isReapable task.tab = false := by simp [isReapable, ht, alive _ t ht]
    rw [runTask_of_some .unchecked task ht, onTab_of_breach? ht hb, Outcome.ok_andThen, reap,
      unreaped]
    rfl
  | none =>
    obtain ⟨e, rfl⟩ := eq_deliver_of_breach? hb
    have gone : h.tabs.contains e.tab = false := Table.contains_eq_false_iff.mpr ht
    rw [runTask, gone, if_neg Bool.false_ne_true, dropUnrouted]
    split <;> rfl

/-- Where a checked build stops at a violation, an unchecked one does no more than to take the
task out that was due. -/
theorem step_of_violation (hs : h.Steady)
    (stops : (h.step .checked ev).fault = some (.violation tab v)) :
    h.step .unchecked ev = .ok (h.consumed ev) := by
  obtain ⟨d, deed, -, breach⟩ := (violation_step_iff hs.sound hs.alive).mp stops
  cases ev with
  | runOne =>
    obtain ⟨⟨task, h'⟩, ht, rfl⟩ := Option.map_eq_some_iff.mp deed
    obtain ⟨htabs, -⟩ := takeTask?_eq_some ht
    obtain ⟨-, retired, -⟩ := rest_of_takeTask? ht
    have breach' : h'.breach? { tab := task.tab, act := task.act, around := h'.shared } =
        some v := by
      rw [breach?, htabs, retired]
      exact breach
    rw [step_runOne .unchecked ht, consumed_runOne ht]
    exact runTask_of_breach? (htabs ▸ hs.alive) breach'
  | addBlocker tab => cases deed; exact onHosted_of_breach? _ breach
  | removeBlocker tab => cases deed; exact onHosted_of_breach? _ breach
  | destroy tab => cases deed; exact onHosted_of_breach? _ breach
  | flush tab | push tab e | hangUp tab =>
    cases deed
    simpa using asked_of_breach? breach
  | _ => cases deed

theorem consumes_of_violation (hs : h.Steady)
    (stops : (h.step .checked ev).fault = some (.violation tab v)) :
    h.Consumes tab ev (h.consumed ev) := by
  obtain ⟨d, deed, rfl, breach⟩ := (violation_step_iff hs.sound hs.alive).mp stops
  by_cases ne : ev = .runOne
  · subst ne
    obtain ⟨⟨task, h'⟩, ht, rfl⟩ := Option.map_eq_some_iff.mp deed
    obtain ⟨p, work⟩ := tasks_of_takeTask? ht
    obtain ⟨e, rfl⟩ := eq_deliver_of_breach? breach
    obtain ⟨htabs, surfaces⟩ := takeTask?_eq_some ht
    obtain ⟨settings, retired, clock⟩ := rest_of_takeTask? ht
    rw [consumed_runOne ht]
    exact ⟨settings, htabs, retired, clock, surfaces, fun _ => ⟨e, p, rfl, work⟩,
      fun ne => absurd rfl ne⟩
  · rw [consumed_of_ne ne]
    exact ⟨rfl, rfl, rfl, rfl, rfl, fun heq => absurd heq ne, fun _ => rfl⟩

theorem Reachable.steady {build : Build} (hr : h.Reachable build) : h.Steady :=
  hr.induct steady_new fun _ _ hs hf => steady_step build hs hf

/-- Some events that a checked build does not end for a violation: in an unchecked build they are
the same up to the one that breaks the protocol, which takes its envelope out, and go on. -/
structure Resumes (h : Host σ) (tab : TabId) (v : Violation) (first : List (Event σ))
    (ev : Event σ) (rest : List (Event σ)) : Prop where
  ends : (h.runs .checked first).fault = none
  same : h.runs .unchecked first = h.runs .checked first
  stops : ((h.runs .checked first).state.step .checked ev).fault = some (.violation tab v)
  ignores : (h.runs .checked first).state.Consumes tab ev
    ((h.runs .checked first).state.consumed ev)
  resumes : h.runs .unchecked (first ++ ev :: rest) = (h.runs .unchecked first).andThen fun h' =>
    (h'.consumed ev).runs .unchecked rest

theorem resumes_of_violation (hs : h.Steady) {evs : List (Event σ)}
    (stops : (h.runs .checked evs).fault = some (.violation tab v)) :
    ∃ first ev rest, evs = first ++ ev :: rest ∧ h.Resumes tab v first ev rest := by
  obtain ⟨first, ev, rest, rfl, ends, stops⟩ := (fault_runs_eq_some_iff .checked).mp stops
  have steady := steady_runs .checked hs ends
  have same := runs_eq_of_ends ends
  refine ⟨first, ev, rest, rfl, ends, same, stops, consumes_of_violation steady stops, ?_⟩
  rw [runs_append, same]
  refine Outcome.andThen_congr ?_
  rw [runs, step_of_violation steady stops, Outcome.ok_andThen]

/-! ## Both builds -/

/-- What an unchecked build does, by what a checked one does. -/
structure Lenient (h : Host σ) : Prop where
  /-- A violation changes nothing but that its envelope is gone. -/
  ignores : ∀ ev tab v, (h.step .checked ev).fault = some (.violation tab v) →
    h.step .unchecked ev = .ok (h.consumed ev) ∧ h.Consumes tab ev (h.consumed ev)
  /-- So it does in the midst of a run, which goes on. -/
  resumes : ∀ ops tab v, (h.performs .checked ops).fault = some (.violation tab v) →
    ∃ first ev rest, h.performs .unchecked ops = h.runs .unchecked (first ++ ev :: rest) ∧
      h.performs .checked ops = h.runs .checked (first ++ ev :: rest) ∧
      h.Resumes tab v first ev rest
  /-- What does not stop as only a checked build stops is the same. -/
  agrees : ∀ ops, (h.performs .checked ops).Agrees (h.performs .unchecked ops)
  drives : ∀ batches, (h.drive .checked batches).Agrees (h.drive .unchecked batches)

/-- In an unchecked build a violation of the protocol is nothing but the loss of the envelope that
it came in, whatever the state of the host and its tabs; and what a checked build does without
stopping at one is done alike. -/
theorem lenient (build : Build) {h : Host σ} (hr : h.Reachable build) : h.Lenient := by
  have hs := hr.steady
  refine ⟨fun ev tab v stops => ⟨step_of_violation hs stops, consumes_of_violation hs stops⟩,
    fun ops tab v stops => ?_, fun ops => agrees_performs ops h,
    fun batches => agrees_drive batches h⟩
  rw [performs_eq_runs_eventsOfAll] at stops
  obtain ⟨first, ev, rest, split, resumes⟩ := resumes_of_violation hs stops
  exact ⟨first, ev, rest, split ▸ performs_eq_runs_eventsOfAll .unchecked ops h,
    split ▸ performs_eq_runs_eventsOfAll .checked ops h, resumes⟩

/-- A tab that is destroyed, with another destroy and a request of another tab behind. -/
def destroyedAgain : List (Event Headless) :=
  [.create { value := 7 } {}, .addBlocker { value := 7 },
    .post { tab := { value := 7 }, request := .destroy },
    .post { tab := { value := 7 }, request := .destroy },
    .post { tab := { value := 9 }, request := .setActive true }, .runOne]

/-- The second destroy does nothing to the tab, whose delete is under way, and a run until idle
goes on behind it; nor does it matter that somebody wants a blocker removed from a tab that never
was. -/
theorem lenient_destroyedAgain :
    let h := ((new {} .zero {}).runs .checked destroyedAgain).state
    (h.step .checked .runOne).fault = some (.violation { value := 7 } .destroyedTwice) ∧
      h.step .unchecked .runOne = .ok (h.consumed .runOne) ∧
      h.Consumes { value := 7 } .runOne (h.consumed .runOne) ∧
      h.step .unchecked (.removeBlocker { value := 9 }) = .ok h ∧
      ∃ first ev rest, h.performs .unchecked [.runUntilIdle] =
          h.runs .unchecked (first ++ ev :: rest) ∧
        h.performs .checked [.runUntilIdle] = h.runs .checked (first ++ ev :: rest) ∧
        h.Resumes { value := 7 } .destroyedTwice first ev rest := by
  have reached : ((new {} .zero {}).runs .checked destroyedAgain).state.Reachable .checked :=
    (Reachable.new {} .zero {}).runs (by rfl)
  have stops : (((new {} .zero {}).runs .checked destroyedAgain).state.step .checked
      .runOne).fault = some (.violation { value := 7 } .destroyedTwice) := by rfl
  obtain ⟨ignored, consumes⟩ := (lenient .checked reached).ignores _ _ _ stops
  obtain ⟨unhosted, -⟩ := (lenient .checked reached).ignores
    (.removeBlocker { value := 9 }) { value := 9 } .blockerForUnknownTab (by rfl)
  exact ⟨stops, ignored, consumes, unhosted,
    (lenient .checked reached).resumes [.runUntilIdle] _ _ (by rfl)⟩

end Host

end TabHost
