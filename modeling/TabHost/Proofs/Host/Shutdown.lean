import Mathlib.Data.List.TakeWhile
import TabHost.Proofs.Host.Quiescence
import TabHost.Proofs.Host.Succession
import TabHost.Proofs.Host.Violations

/-!
# After the end of all tabs

The end of all tabs leaves the work that waits alone, and the ids of the tabs that it drops are
not noted as those of deleted ones. So the host has forgotten these ids until they are used again
(`Host.Forgotten`), and an envelope that comes late for one of them is taken to be for a tab that
never was. Any other envelope than a destroy is delivered or dropped.

A first pass that waited for a tab that was dropped is taken for that of the next tab of the id. So
that tab goes on to its second pass when the old one is done, and what waited behind it waits on
(`Host.Bounces`). If none is left over, the tab waits for all that was queued when its destroy was
accepted, as it would in a host that was never shut down (`Host.carries_on`).
-/

set_option linter.unusedSectionVars false

namespace TabHost

theorem takeWhile_append_cons {α : Type} {p : α → Bool} {a : α} (ha : p a = false)
    (xs ys : List α) : (xs ++ a :: ys).takeWhile p = xs.takeWhile p := by
  induction xs with
  | nil => simp [ha]
  | cons x xs ih => simp [List.takeWhile_cons, ih]

/-- What stands before the first element of some kind stands there however far one looks. -/
theorem eq_takeWhile_of_concat_prefix {α : Type} {p : α → Bool} {xs ys zs : List α} {a b : α}
    (ha : p a = false) (hb : p b = false) (hy : ∀ y ∈ ys, p y = true)
    (h : xs ++ [a] <+: ys ++ b :: zs) : ys = xs.takeWhile p := by
  obtain ⟨rest, h⟩ := h
  calc ys = ys.takeWhile p := (List.takeWhile_eq_self_iff.mpr hy).symm
    _ = (ys ++ b :: zs).takeWhile p := (takeWhile_append_cons hb ys zs).symm
    _ = (xs ++ a :: rest).takeWhile p := by rw [← h, List.append_assoc, List.singleton_append]
    _ = xs.takeWhile p := takeWhile_append_cons ha xs rest

/-- Where a pass is not among some tasks, none of them is the pass. -/
theorem Task.isPass_eq_false_of_not_mem {d : DeletePass} {ts : List Task} (h : .delete d ∉ ts) :
    ∀ t ∈ ts, (!t.isPass d) = true := by
  intro t hm
  cases t with
  | deliver => rfl
  | delete d' =>
    have other : d' ≠ d := by
      rintro rfl
      exact h hm
    simpa [isPass] using other

variable {σ : Type} [Content σ]

namespace Host

variable {h h' h₀ : Host σ} {tab : TabId} {ev : Event σ} {d : DeletePass}

/-! ## The end of all tabs -/

/-- Dropping a tab creates none, and notes none as deleted. -/
theorem dropTabs_quiet (tabs : List TabId) (h : Host σ) :
    (h.dropTabs tabs).state.retired = h.retired ∧
      ∀ tab, .created tab ∉ (h.dropTabs tabs).trace := by
  induction tabs generalizing h with
  | nil => exact ⟨rfl, fun _ => List.not_mem_nil⟩
  | cons first rest ih =>
    obtain ⟨hf, htr, -⟩ := h.dropTab_spec first
    obtain ⟨retired, trace⟩ := ih (h.dropTab first).state
    rw [dropTabs, Outcome.state_andThen hf, Outcome.trace_andThen hf]
    refine ⟨retired.trans (onTab_spec first Seat.destroyWindow h).2, fun tab hm => ?_⟩
    rcases List.mem_append.mp hm with hm | hm
    · rw [htr] at hm
      unfold farewells at hm
      split at hm
      · cases hm
      · split at hm
        · cases hm
        · cases List.mem_singleton.mp hm
    · exact trace tab hm

theorem retired_shutdown (h : Host σ) : h.shutdown.state.retired = h.retired :=
  (dropTabs_quiet h.tabs.keys h).1

theorem created_not_mem_shutdown (h : Host σ) (tab : TabId) : .created tab ∉ h.shutdown.trace :=
  (dropTabs_quiet h.tabs.keys h).2 tab

theorem contains_shutdown (hs : h.Sound) (tab : TabId) :
    h.shutdown.state.tabs.contains tab = false :=
  Table.contains_eq_false_iff.mpr ((shuts_shutdown .checked hs).tabs tab)

/-! ## What is kept up -/

/-- A pass waited before an event, or it waits at its priority. -/
theorem mem_tasks_step (build : Build) (hs : h.Sound) (ne : ev ≠ .shutdown) {p : Priority}
    (hm : .delete d ∈ (h.step build ev).state.shared.queue.tasks p) :
    .delete d ∈ (h.waitingBeside ev).tasks p ∨ p = d.priority := by
  have scheduled : ∀ {pass : DeletePass} {q : RunQueue},
      .delete d ∈ (q.schedule pass).tasks p → .delete d ∈ q.tasks p ∨ p = d.priority := by
    intro pass q hm
    rw [RunQueue.schedule, RunQueue.tasks_push] at hm
    rcases List.mem_append.mp hm with hm | hm
    · exact Or.inl hm
    · split at hm
      · next hp =>
        cases List.mem_singleton.mp hm
        exact Or.inr hp.symm
      · cases hm
  cases stepCase build hs ev with
  | quiet _ deed =>
    rw [queue_step_of_quiet build ne deed] at hm
    exact Or.inl hm
  | created tab content link _ _ event _ state =>
    rw [state] at hm
    rcases event with ⟨c, rfl⟩ | ⟨c, heard, rfl⟩ <;> exact Or.inl hm
  | acted d' t deed htab _ acts =>
    rw [acts.shared] at hm
    rw [← queue_around deed]
    cases Seat.progresses_act build d'.act (s := { tab := t, shared := d'.around })
      (hs _ _ htab).1 with
    | asked _ _ _ queue | bounced _ _ _ _ queue => exact scheduled (queue ▸ hm)
    | stays _ _ _ queue | lost _ _ _ queue | finished _ _ _ _ queue => exact Or.inl (queue ▸ hm)
  | shut event => exact absurd event ne

/-- A pass that waits beside an event waited before. -/
theorem mem_waitingBeside {p : Priority} (hm : .delete d ∈ (h.waitingBeside ev).tasks p) :
    .delete d ∈ h.shared.queue.tasks p := by
  cases ev with
  | runOne =>
    have pulled : .delete d ∈ h.pullInbox.shared.queue.tasks p := by
      rw [tasks_pullInbox_eq]
      exact List.mem_append_right _ hm
    rw [tasks_pullInbox] at pulled
    refine (List.mem_append.mp pulled).resolve_right fun hm => ?_
    obtain ⟨e, -, he⟩ := List.mem_map.mp hm
    cases he
  | _ => exact hm

/-- What is kept up whatever happens to a host, its end included. -/
structure Steady (h : Host σ) : Prop where
  sound : h.Sound
  alive : ∀ tab t, h.tabs.get? tab = some t → t.state ≠ .deleted
  disjoint : ∀ tab ∈ h.retired, h.tabs.contains tab = false
  placed : h.PassesPlaced

theorem steady_new (settings : Settings) (clock : Duration) (surfaces : Surfaces) :
    (new settings clock surfaces : Host σ).Steady :=
  have start := orderly_new (σ := σ) settings clock surfaces
  ⟨start.sound, fun _ _ ht => start.order.ne_deleted ht, start.disjoint, start.order.placed⟩

theorem steady_step (build : Build) (hs : h.Steady) (fault : (h.step build ev).fault = none) :
    (h.step build ev).state.Steady := by
  refine ⟨sound_step build hs.sound ev,
    fun _ _ => state_step_ne_deleted build hs.sound hs.alive fault, ?_, fun p d hm => ?_⟩
  · by_cases ne : ev = .shutdown
    · subst ne
      exact fun tab _ => contains_shutdown hs.sound tab
    · exact (rollCase_step build ne h).disjoint hs.disjoint
  · by_cases ne : ev = .shutdown
    · subst ne
      rw [step, queue_shutdown] at hm
      exact hs.placed p d hm
    · rcases mem_tasks_step build hs.sound ne hm with hm | hp
      · exact hs.placed p d (mem_waitingBeside hm)
      · exact hp

theorem steady_runs (build : Build) {evs : List (Event σ)} (hs : h.Steady)
    (fault : (h.runs build evs).fault = none) : (h.runs build evs).state.Steady :=
  runs_preserves (P := Steady) (fun _ _ _ hs hf => steady_step build hs hf) hs fault

/-! ## Ids that are forgotten -/

/-- A tab of an id was dropped with all others, and none was created under the id since. -/
def Forgotten (build : Build) (tab : TabId) (evs : List (Event σ)) (h : Host σ) : Prop :=
  ∃ first rest, evs = first ++ .shutdown :: rest ∧
    (h.runs build first).state.tabs.contains tab = true ∧
    .created tab ∉ ((h.runs build first).state.runs build (.shutdown :: rest)).trace

theorem enrolled_step_iff (build : Build) (hs : h.Sound) (ne : ev ≠ .shutdown) :
    (h.step build ev).state.Enrolled tab ↔
      h.Enrolled tab ∨ .created tab ∈ (h.step build ev).trace :=
  ⟨created_of_enrolled build hs ne,
    fun he => he.elim (rollCase_step build ne h).enrolled (enrolled_of_created build hs ne)⟩

/-- The end of all tabs strikes the ids of the tabs that are there. -/
theorem enrolled_shutdown_iff (hs : h.Steady) :
    h.shutdown.state.Enrolled tab ↔ h.Enrolled tab ∧ h.tabs.contains tab = false := by
  rw [Enrolled, contains_shutdown hs.sound, retired_shutdown, Enrolled]
  constructor
  · intro he
    have gone := he.resolve_left (by simp)
    exact ⟨Or.inr gone, hs.disjoint tab gone⟩
  · rintro ⟨there | gone, absent⟩
    · rw [absent] at there
      cases there
    · exact Or.inr gone

theorem forgotten_cons_iff (build : Build) {rest : List (Event σ)}
    (fault : (h.step build ev).fault = none) :
    h.Forgotten build tab (ev :: rest) ↔
      (ev = .shutdown ∧ h.tabs.contains tab = true ∧
        .created tab ∉ (h.runs build (.shutdown :: rest)).trace) ∨
      (h.step build ev).state.Forgotten build tab rest := by
  have later : ∀ first, (h.runs build (ev :: first)).state =
      ((h.step build ev).state.runs build first).state :=
    fun first => Outcome.state_andThen fault (runs build first)
  constructor
  · rintro ⟨first, rest', split, there, since⟩
    cases first with
    | nil =>
      cases split
      exact Or.inl ⟨rfl, there, since⟩
    | cons ev' first =>
      cases split
      rw [later] at there since
      exact Or.inr ⟨first, rest', rfl, there, since⟩
  · rintro (⟨rfl, there, since⟩ | ⟨first, rest', rfl, there, since⟩)
    · exact ⟨[], rest, rfl, there, since⟩
    · rw [← later] at there since
      exact ⟨ev :: first, rest', rfl, there, since⟩

/-- The roll of a host holds the ids that tabs were created under, but for those that are
forgotten. -/
theorem enrolled_runs_iff_of_steady (build : Build) {evs : List (Event σ)} (hs : h.Steady)
    (fault : (h.runs build evs).fault = none) :
    (h.runs build evs).state.Enrolled tab ↔
      (h.Enrolled tab ∨ .created tab ∈ (h.runs build evs).trace) ∧
        ¬h.Forgotten build tab evs := by
  induction evs generalizing h with
  | nil =>
    have unforgotten : ¬h.Forgotten build tab [] := by
      rintro ⟨first, rest, split, -⟩
      simp at split
    simp [runs, Outcome.ok, unforgotten]
  | cons ev rest ih =>
    obtain ⟨here, later⟩ := Outcome.fault_andThen_eq_none_iff.mp fault
    rw [forgotten_cons_iff build here, runs, Outcome.state_andThen here,
      Outcome.trace_andThen here, List.mem_append, ih (steady_step build hs here) later]
    by_cases ne : ev = .shutdown
    · subst ne
      have none := created_not_mem_shutdown h tab
      have whole : (h.runs build (.shutdown :: rest)).trace =
          h.shutdown.trace ++ (h.shutdown.state.runs build rest).trace :=
        Outcome.trace_andThen here (runs build rest)
      rw [whole, List.mem_append, step, enrolled_shutdown_iff hs]
      cases h.tabs.contains tab <;> simp [none]
      tauto
    · rw [enrolled_step_iff build hs.sound ne]
      simp only [ne, false_and, false_or, or_assoc]

/-! ## Envelopes that come late -/

/-- What an envelope other than a destroy is against the protocol. -/
theorem breach?_request_iff {e : Envelope} {around : Shared} {v : Violation}
    (calm : e.request ≠ .destroy) :
    h.breach? { tab := e.tab, act := .request e, around } = some v ↔
      v = .unexpected e.request.name ∧ e.request ≠ .channelClosed ∧ ¬h.Enrolled e.tab := by
  obtain ⟨tab, channel, priority, request⟩ := e
  unfold breach? Enrolled Table.contains
  dsimp only
  cases h.tabs.get? tab with
  | some t =>
    have asks : (Act.request ⟨tab, channel, priority, request⟩).asksDestroy = false := by
      cases request <;> first | rfl | exact absurd rfl calm
    have none : t.breach? (.request ⟨tab, channel, priority, request⟩) = none := by
      unfold Tab.breach?
      rw [asks]
      split <;> rfl
    simp [none]
  | none =>
    by_cases gone : tab ∈ h.retired <;>
      cases request <;> simp [absentBreach?, gone, eq_comm] at calm ⊢

/-- A checked build stops at an envelope other than a destroy just if its id is not on the roll,
unless it tells of a lost link. -/
theorem violation_runOne_iff (hs : h.Steady) {e : Envelope} (calm : e.request ≠ .destroy)
    (due : h.takeTask? = some (.deliver e, h')) (tab : TabId) (v : Violation) :
    (h.step .checked .runOne).fault = some (.violation tab v) ↔
      tab = e.tab ∧ v = .unexpected e.request.name ∧ e.request ≠ .channelClosed ∧
        ¬h.Enrolled e.tab := by
  rw [violation_step_iff hs.sound hs.alive, deed?_runOne due]
  constructor
  · rintro ⟨d, deed, rfl, breach⟩
    cases deed
    exact ⟨rfl, (breach?_request_iff calm).mp breach⟩
  · rintro ⟨rfl, broken⟩
    exact ⟨_, rfl, rfl, (breach?_request_iff calm).mpr broken⟩

/-- It is dropped if there is no tab of its id and it stops nothing. -/
theorem dropped_of_enrolled {e : Envelope} (calm : e.request ≠ .destroy)
    (due : h.takeTask? = some (.deliver e, h')) (gone : h.tabs.contains e.tab = false)
    (inert : e.request = .channelClosed ∨ h.Enrolled e.tab) :
    h.step .checked .runOne = .ok h' := by
  have fault := ends_runOne_of_absent due gone inert calm
  obtain ⟨state, trace⟩ := dropped_of_absent .checked due gone
  cases ho : h.step .checked .runOne
  rw [ho] at fault state trace
  cases fault
  cases state
  cases trace
  rfl

/-- What stops a run until idle as a violation stops one of its tasks. -/
theorem violation_start_iff (hs : h.Steady) (tab : TabId) (v : Violation) :
    (h.start .checked).fault = some (.violation tab v) ↔
      ∃ first rest, h.idleEvents .checked = first ++ .runOne :: rest ∧
        (h.runs .checked first).fault = none ∧
        ((h.runs .checked first).state.step .checked .runOne).fault = some (.violation tab v) := by
  rw [start_eq_runs, fault_runs_eq_some_iff]
  constructor
  · rintro ⟨first, ev, rest, split, fault, stops⟩
    have works : ev ∈ h.eventsOf .checked .runUntilIdle := by
      show ev ∈ h.idleEvents .checked
      rw [split]
      simp
    rcases (mem_eventsOf works).resolve_left (by simp) with rfl | ⟨other, rfl⟩
    · exact ⟨first, rest, split, fault, stops⟩
    · -- nothing that a tab dispatches is against the protocol
      have past := steady_runs .checked hs fault
      obtain ⟨d, deed, -, breach⟩ := (violation_step_iff past.sound past.alive).mp stops
      cases deed
      unfold breach? at breach
      split at breach
      · unfold Tab.breach? at breach
        split at breach <;> cases breach
      · cases breach
  · rintro ⟨first, rest, split, fault, stops⟩
    exact ⟨first, .runOne, rest, split, fault, stops⟩

/-! ## Passes that are left over -/

/-- What is done of the work that waited when a destroy was accepted, once the first pass of a
delete finds the tab. -/
structure Bounces (build : Build) (tab : TabId) (ask : Event σ) (first : List (Event σ))
    (h : Host σ) : Prop where
  due : ∃ h', ((h.step build ask).state.runs build first).state.takeTask? =
    some (.delete { tab }, h')
  /-- Of input priority, all is done. -/
  input : (h.waitingBeside ask).tasks .input <+:
    (h.step build ask).state.doneIn build .input first
  /-- Of normal priority, what waited before a pass that was left over, and no more. -/
  normal : (h.step build ask).state.doneIn build .normal first =
    ((h.waitingBeside ask).tasks .normal).takeWhile fun t => !t.isPass { tab }
  /-- So all is done just if none was left over. -/
  all : (∀ p, (h.waitingBeside ask).tasks p <+: (h.step build ask).state.doneIn build p first) ↔
    .delete { tab } ∉ (h.waitingBeside ask).tasks .normal

/-- When a tab whose destroy was accepted is there no more, a first pass has found it. -/
theorem bounces_of_deleted (build : Build) (hs : h.Steady) {ask last : Event σ}
    {between : List (Event σ)} (running : .shutdown ∉ between ++ [last])
    (accepted : h.AcceptsDestroy tab ask)
    (fault : (h.step build ask).fault = none)
    (fault' : ((h.step build ask).state.runs build between).fault = none)
    (deleted : (((h.step build ask).state.runs build between).state.step build
      last).state.tabs.get? tab = none) :
    ∃ first rest, between = first ++ .runOne :: rest ∧ h.Bounces build tab ask first := by
  obtain ⟨running, lasts⟩ : .shutdown ∉ between ∧ last ≠ .shutdown := by
    simpa [eq_comm] using running
  have hs₁ := steady_step build hs fault
  have hs₂ := steady_runs build hs₁ fault'
  obtain ⟨first, rest, h', rfl, taken, unbounced⟩ := first_bounce_of_runs build hs₁.sound running
    fault' (destroying_of_accepts build hs.sound accepted).1
    (stage?_ne_of_deleted build hs₂.sound lasts deleted)
  have running₃ : .shutdown ∉ first := fun hm => running (List.mem_append_left _ hm)
  rw [runs_append] at fault'
  have fault₃ := (Outcome.fault_andThen_eq_none_iff.mp fault').1
  obtain ⟨none, rest', normal⟩ := quiet_of_first (steady_runs build hs₁ fault₃).placed taken
  have input := input_before_first build hs.sound accepted running₃ fault₃ none
  have done : (h.step build ask).state.doneIn build .normal first =
      ((h.waitingBeside ask).tasks .normal).takeWhile fun t => !t.isPass { tab } := by
    have waits := queued_before_first build hs.sound accepted running₃ fault₃ .normal
    rw [normal, if_pos rfl] at waits
    have pass : (!(Task.delete { tab }).isPass { tab }) = false := by simp [Task.isPass]
    exact eq_takeWhile_of_concat_prefix pass pass
      (Task.isPass_eq_false_of_not_mem (unbounced .normal)) waits
  refine ⟨first, rest, rfl, ⟨h', taken⟩, input, done, fun all hm => ?_, fun fresh p => ?_⟩
  · exact unbounced .normal ((all .normal).subset hm)
  · cases p with
    | input => exact input
    | normal =>
      have whole := List.takeWhile_eq_self_iff.mpr (Task.isPass_eq_false_of_not_mem fresh)
      have same := done.trans whole
      exact same ▸ List.prefix_rfl

theorem timely_shutdown (hs : h.Sound) (hd : h.Timely d)
    (calm : h.stage? d.tab ≠ some d.stage) : h.shutdown.state.Timely d := by
  intro p
  rw [queue_shutdown, hd, due_of_none ((shuts_shutdown .checked hs).tabs d.tab), due,
    if_neg fun due => calm due.2]

/-- A pass waits just for its tab, unless it was left over when that tab was dropped. -/
theorem timely_or_left_over (build : Build) {evs : List (Event σ)} (hs : h.Sound)
    (hd : h.Timely d) (fault : (h.runs build evs).fault = none) :
    (h.runs build evs).state.Timely d ∨ ∃ first rest, evs = first ++ .shutdown :: rest ∧
      (h.runs build first).state.stage? d.tab = some d.stage := by
  induction evs generalizing h with
  | nil => exact Or.inl hd
  | cons ev rest ih =>
    obtain ⟨here, later⟩ := Outcome.fault_andThen_eq_none_iff.mp fault
    have next : (h.step build ev).state.Timely d ∨
        ev = .shutdown ∧ h.stage? d.tab = some d.stage := by
      by_cases ne : ev = .shutdown
      · subst ne
        by_cases due : h.stage? d.tab = some d.stage
        · exact Or.inr ⟨rfl, due⟩
        · exact Or.inl (timely_shutdown hs hd due)
      · exact Or.inl (timely_step build hs hd ne)
    rcases next with next | ⟨rfl, due⟩
    · rw [runs, Outcome.state_andThen here]
      refine (ih (sound_step build hs ev) next later).imp_right ?_
      rintro ⟨first, rest', rfl, due⟩
      refine ⟨ev :: first, rest', rfl, ?_⟩
      rw [runs, Outcome.state_andThen here]
      exact due
    · exact Or.inr ⟨[], rest, rfl, due⟩

/-! ## All that is done to a host -/

/-- How a checked build deals with what was queued, once some events have happened. -/
structure CarriesOn (evs : List (Event σ)) (h₀ : Host σ) : Prop where
  /-- It stops at an envelope other than a destroy just if there never was a tab of its id, or if
  that was forgotten; and never at the loss of a link. -/
  stops : ∀ e h', (h₀.runs .checked evs).state.takeTask? = some (.deliver e, h') →
    e.request ≠ .destroy → ∀ tab v,
    (((h₀.runs .checked evs).state.step .checked .runOne).fault = some (.violation tab v) ↔
      tab = e.tab ∧ v = .unexpected e.request.name ∧ e.request ≠ .channelClosed ∧
        (.created e.tab ∉ (h₀.runs .checked evs).trace ∨ h₀.Forgotten .checked e.tab evs))
  /-- Any other one without a tab of its id is dropped. -/
  dropped : ∀ e h', (h₀.runs .checked evs).state.takeTask? = some (.deliver e, h') →
    e.request ≠ .destroy → (h₀.runs .checked evs).state.tabs.contains e.tab = false →
    e.request = .channelClosed ∨
      .created e.tab ∈ (h₀.runs .checked evs).trace ∧ ¬h₀.Forgotten .checked e.tab evs →
    (h₀.runs .checked evs).state.step .checked .runOne = .ok h'
  /-- In a run until idle, it stops at one of the tasks that the run does. -/
  untilIdle : ∀ tab v,
    ((h₀.runs .checked evs).state.start .checked).fault = some (.violation tab v) ↔
      ∃ first rest, (h₀.runs .checked evs).state.idleEvents .checked = first ++ .runOne :: rest ∧
        (h₀.runs .checked (evs ++ first)).fault = none ∧
        ((h₀.runs .checked (evs ++ first)).state.step .checked .runOne).fault =
          some (.violation tab v)
  /-- A tab whose destroy was accepted is deleted when what waited then is done, up to a pass that
  was left over. -/
  bounces : ∀ before ask between last tab, evs = before ++ ask :: between →
    .shutdown ∉ between ++ [last] →
    (h₀.runs .checked before).state.AcceptsDestroy tab ask →
    ((h₀.runs .checked evs).state.step .checked last).state.tabs.get? tab = none →
    ∃ first rest, between = first ++ .runOne :: rest ∧
      (h₀.runs .checked before).state.Bounces .checked tab ask first
  /-- If one was, then the tab that it was for was to be destroyed at the end of all tabs. -/
  leftOver : ∀ before ask between tab, evs = before ++ ask :: between →
    (h₀.runs .checked before).state.isLive tab = true →
    .delete { tab } ∈ ((h₀.runs .checked before).state.waitingBeside ask).tasks .normal →
    ∃ first rest, before = first ++ .shutdown :: rest ∧
      (h₀.runs .checked first).state.stage? tab = some .destroying

/-- Whatever is done to a host, its end included: an envelope that comes late is dropped unless its
id is forgotten, and a tab is deleted behind all that waited unless a pass is left over. -/
theorem carries_on (settings : Settings) (clock : Duration) (surfaces : Surfaces)
    {evs : List (Event σ)}
    (fault : ((new settings clock surfaces).runs .checked evs).fault = none) :
    (new settings clock surfaces).CarriesOn evs := by
  have start := steady_new (σ := σ) settings clock surfaces
  have unused := not_enrolled_new (σ := σ) settings clock surfaces
  have timely := (orderly_new (σ := σ) settings clock surfaces).order.timely
  generalize new settings clock surfaces = h₀ at *
  have past := steady_runs .checked start fault
  have roll : ∀ tab, (h₀.runs .checked evs).state.Enrolled tab ↔
      .created tab ∈ (h₀.runs .checked evs).trace ∧ ¬h₀.Forgotten .checked tab evs := by
    intro tab
    rw [enrolled_runs_iff_of_steady .checked start fault]
    simp [unused tab]
  refine ⟨fun e h' due calm tab v => ?_, fun e h' due calm gone inert => ?_, fun tab v => ?_,
    ?_, ?_⟩
  · rw [violation_runOne_iff past calm due, roll, not_and_or, not_not]
  · exact dropped_of_enrolled calm due gone (inert.imp_right (roll e.tab).mpr)
  · simp only [violation_start_iff past, runs_append, Outcome.fault_andThen fault,
      Outcome.state_andThen fault]
  · intro before ask between last tab split running accepted deleted
    obtain ⟨fault₁, fault₂, fault₃⟩ := ends_split .checked (split ▸ fault)
    rw [split, (runs_split .checked h₀ fault₁ fault₂ between).1] at deleted
    exact bounces_of_deleted .checked (steady_runs .checked start fault₁) running accepted fault₂
      fault₃ deleted
  · intro before ask between tab split live hm
    have fault₁ := (ends_split .checked (split ▸ fault)).1
    refine (timely_or_left_over .checked start.sound (timely { tab }) fault₁).resolve_left ?_
    exact fun timely => not_mem_beside timely live ask .normal hm

/-- Work for a tab waits when all tabs end. -/
def cutOff : List (Event Headless) := [.create { value := 7 } {}, .post oldWork, .shutdown]

/-- The first pass of a delete waits when all tabs end. Then the tab is created again, and another
one with some work, and is asked to be destroyed. -/
def cutOffDying : List (Event Headless) :=
  [.create { value := 7 } {}, .destroy { value := 7 }, .shutdown, .create { value := 7 } {},
    .create { value := 8 } {}, .post (activation .normal true),
    .post { tab := { value := 7 }, priority := .input, request := .destroy }]

theorem accepts_cutOffDying :
    ((new {} .zero {}).runs .checked cutOffDying).state.AcceptsDestroy { value := 7 } .runOne :=
  ⟨by rfl, _, rfl, rfl, rfl⟩

/-- The work is against the protocol; and the pass that is left over finds the new tab before any
work is done. -/
theorem carries_on_cutOff :
    (((new {} .zero {}).runs .checked cutOff).state.step .checked .runOne).fault =
        some (.violation { value := 7 } (.unexpected "set_active")) ∧
      ∃ first rest, [.runOne] = first ++ .runOne :: rest ∧
        (((new {} .zero {}).runs .checked cutOffDying).state.step .checked .runOne).state.doneIn
          .checked .normal first = [] := by
  have cut : (new {} .zero {}).CarriesOn cutOff := carries_on {} .zero {} (by rfl)
  have dying : (new {} .zero {}).CarriesOn (cutOffDying ++ [.runOne, .runOne]) :=
    carries_on {} .zero {} (by rfl)
  have forgotten : (new {} .zero {}).Forgotten .checked { value := 7 } cutOff := by
    refine ⟨[.create { value := 7 } {}, .post oldWork], [], rfl, by rfl, ?_⟩
    rw [runs_singleton]
    exact created_not_mem_shutdown _ _
  refine ⟨(cut.stops oldWork _ rfl (by simp [oldWork]) _ _).mpr
    ⟨rfl, rfl, by simp [oldWork], Or.inr forgotten⟩, ?_⟩
  obtain ⟨first, rest, split, bounces⟩ := dying.bounces cutOffDying .runOne [.runOne] .runOne
    { value := 7 } rfl (by simp) accepts_cutOffDying (by rfl)
  exact ⟨first, rest, split, bounces.normal⟩

/-- The end of all tabs leaves traps behind: an envelope for a tab that there was may stop a checked
build, and a tab that is created later may be deleted before all that waited when its destroy was
accepted is done. -/
theorem trapped_by_what_is_left :
    (¬∀ (first rest : List (Event Headless)) (e : Envelope) (h' : Host Headless),
      ((new {} .zero {}).runs .checked (first ++ .shutdown :: rest)).fault = none →
      .created e.tab ∈ ((new {} .zero {}).runs .checked first).trace →
      ((new {} .zero {}).runs .checked (first ++ .shutdown :: rest)).state.takeTask? =
        some (.deliver e, h') → e.request ≠ .destroy →
      ∀ tab v, (((new {} .zero {}).runs .checked (first ++ .shutdown :: rest)).state.step .checked
        .runOne).fault ≠ some (.violation tab v)) ∧
    ¬∀ (before between : List (Event Headless)) (ask last : Event Headless) (tab : TabId),
      .shutdown ∉ between ++ [last] →
      ((new {} .zero {}).runs .checked (before ++ ask :: between)).fault = none →
      ((new {} .zero {}).runs .checked before).state.AcceptsDestroy tab ask →
      (((new {} .zero {}).runs .checked (before ++ ask :: between)).state.step .checked
        last).state.tabs.get? tab = none →
      ∀ p, (((new {} .zero {}).runs .checked before).state.waitingBeside ask).tasks p <+:
        (((new {} .zero {}).runs .checked before).state.step .checked ask).state.doneIn .checked p
          between := by
  refine ⟨fun claim => ?_, fun claim => ?_⟩
  · exact claim [.create { value := 7 } {}, .post oldWork] [] oldWork _ (by rfl)
      List.mem_cons_self rfl (by simp [oldWork]) { value := 7 } (.unexpected "set_active") (by rfl)
  · have waits := claim cutOffDying [.runOne] .runOne .runOne { value := 7 } (by simp) (by rfl)
      accepts_cutOffDying (by rfl) .normal
    exact absurd waits.length_le (by decide)

end Host

end TabHost
