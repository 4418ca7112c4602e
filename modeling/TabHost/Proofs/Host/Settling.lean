import TabHost.Proofs.Host.Wheel
import TabHost.Proofs.Host.Workload
import TabHost.Proofs.Tab.Ledger

/-!
# A run until idle settles everything

A run until idle is a loop: round after round, the task that is due is done, and where none is,
all tabs dispatch what they kept back; it goes on until nothing waits after that (`Host.Loops`).
Each task lowers the work there is, and the dispatch makes none, so the loop comes to its end
(`Host.loops_runUntilIdle`), whatever the content of the tabs pushes into them meanwhile.

Then nothing is left to do (`Host.Settled`): no pass of a delete waits, so no tab is on its way
to being deleted; no wheel event waits, so none is held back; and the tabs dispatched all their
pointer input.
-/

set_option linter.unusedSectionVars false

namespace TabHost

variable {σ : Type} [Content σ]

namespace Host

variable {build : Build} {h h' : Host σ} {s : Nat × Host σ} {o o' : Outcome Effect (Nat × Host σ)}
  {tab other : TabId}

/-! ## Rounds -/

/-- A round of the loop: the task that is due is done, and counted. Where none is due, all tabs
dispatch what they kept back, and what is in the inbox then is queued. -/
def round (build : Build) (s : Nat × Host σ) : Outcome Effect (Nat × Host σ) :=
  match s.2.takeTask? with
  | some (t, h) => (h.runTask build t).map fun h => (s.1 + 1, h)
  | none => s.2.pullInbox.flushAll.map fun h => (s.1, h.pullInbox)

/-- Whether a round is the last one: no task was due before it, and none waits after it. -/
def isLast (build : Build) (s : Nat × Host σ) : Bool :=
  s.2.takeTask?.isNone && (round build s).state.2.shared.queue.isIdle

/-- What the loop comes to, in however many rounds. -/
inductive Loops (build : Build) : Nat × Host σ → Outcome Effect (Nat × Host σ) → Prop
  | breaks {s : Nat × Host σ} {f : Fault} (fault : (round build s).fault = some f) :
      Loops build s (round build s)
  | ends {s : Nat × Host σ} (fault : (round build s).fault = none)
      (last : isLast build s = true) : Loops build s (round build s)
  | goesOn {s : Nat × Host σ} {o : Outcome Effect (Nat × Host σ)}
      (fault : (round build s).fault = none) (more : isLast build s = false)
      (rest : Loops build (round build s).state o) :
      Loops build s ((round build s).andThen fun _ => o)

/-- The loop comes to one end only. -/
theorem Loops.unique (h : Loops build s o) (h' : Loops build s o') : o = o' := by
  induction h generalizing o' with
  | breaks fault =>
    cases h' with
    | breaks => rfl
    | ends fault' | goesOn fault' => cases fault.symm.trans fault'
  | ends fault last =>
    cases h' with
    | breaks fault' => cases fault.symm.trans fault'
    | ends => rfl
    | goesOn _ more => cases last.symm.trans more
  | goesOn fault more _ ih =>
    cases h' with
    | breaks fault' => cases fault.symm.trans fault'
    | ends _ last => cases more.symm.trans last
    | goesOn _ _ rest => rw [ih rest]

/-! ## Dispatching what was kept back -/

/-- A tab that is live keeps nothing of its pointer input back. -/
def Clear (h : Host σ) (tab : TabId) : Prop :=
  ∀ t, h.tabs.get? tab = some t → t.state.isLive = true → t.moves = some {}

theorem queue_onTab_flushInput (tab : TabId) (h : Host σ) :
    (h.onTab tab Seat.flushInput).state.shared.queue = h.shared.queue := by
  cases ht : h.tabs.get? tab with
  | none =>
    rw [onTab_of_none ht]
    rfl
  | some t =>
    rw [onTab_of_some ht]
    exact (Seat.feeds_flushInput { tab := t, shared := h.shared }).queue

/-- Dispatching the pointer input that tabs kept back makes no work. -/
theorem idle_flushTabs (tabs : List TabId) (h : Host σ) :
    (h.flushTabs tabs).state.inbox = h.inbox ∧
      (h.flushTabs tabs).state.shared.queue = h.shared.queue := by
  induction tabs generalizing h with
  | nil => exact ⟨rfl, rfl⟩
  | cons first rest ih =>
    refine Outcome.andThen_preserves
      (P := fun h' : Host σ => h'.inbox = h.inbox ∧ h'.shared.queue = h.shared.queue)
      ⟨inbox_onTab first _ h, queue_onTab_flushInput first h⟩ fun h' same => ?_
    exact ⟨(ih h').1.trans same.1, (ih h').2.trans same.2⟩

/-- A tab that dispatched what it kept back keeps nothing back. -/
theorem clear_flush_self (hs : h.Sound)
    (hf : (h.onTab tab Seat.flushInput).fault = none) :
    (h.onTab tab Seat.flushInput).state.Clear tab := by
  intro t' ht' live
  cases ht : h.tabs.get? tab with
  | none =>
    rw [onTab_of_none ht] at ht'
    cases ht.symm.trans ht'
  | some t =>
    rw [onTab_of_some ht] at ht' hf
    cases (Table.get?_insert_self _ _ _).symm.trans ht'
    have same := (Seat.feeds_flushInput { tab := t, shared := h.shared }).state
    have live' : t.state.isLive = true := (congrArg Lifecycle.isLive same).symm.trans live
    obtain ⟨b, hb⟩ := Option.isSome_iff_exists.mp ((hs tab t ht).1.live live').1
    exact Seat.moves_flushInput (s := { tab := t, shared := h.shared }) hb live' hf

theorem clear_flush (hs : h.Sound) (hf : (h.onTab tab Seat.flushInput).fault = none)
    (hc : h.Clear other) : (h.onTab tab Seat.flushInput).state.Clear other := by
  by_cases hk : other = tab
  · rw [hk]
    exact clear_flush_self hs hf
  · intro t ht
    rw [get?_onTab_of_ne hk] at ht
    exact hc t ht

theorem clear_flushTabs (tabs : List TabId) (hs : h.Sound) (hf : (h.flushTabs tabs).fault = none)
    (hc : ∀ tab, tab ∉ tabs → h.Clear tab) (tab : TabId) : (h.flushTabs tabs).state.Clear tab := by
  induction tabs generalizing h with
  | nil => exact hc tab List.not_mem_nil
  | cons first rest ih =>
    obtain ⟨here, later⟩ := Outcome.fault_andThen_eq_none_iff.mp hf
    rw [flushTabs, Outcome.state_andThen here]
    refine ih (sound_step .checked hs (.flush first)) later fun other hm => ?_
    by_cases hk : other = first
    · rw [hk]
      exact clear_flush_self hs here
    · exact clear_flush hs here (hc other (by simp [hk, hm]))

theorem clear_flushAll (hs : h.Sound) (hf : h.flushAll.fault = none) (tab : TabId) :
    h.flushAll.state.Clear tab := by
  refine clear_flushTabs h.tabs.keys hs hf (fun other hm t ht => ?_) tab
  exact absurd (Table.mem_keys_iff.mpr (by rw [ht]; rfl)) hm

/-! ## The loop comes to its end -/

/-- Where no task is due, one more round is the last one. -/
theorem loops_of_idle (build : Build) (idle : s.2.takeTask? = none) :
    Loops build s (s.2.pullInbox.flushAll.map fun h => (s.1, h)) := by
  obtain ⟨inbox, queue⟩ := idle_flushTabs s.2.pullInbox.tabs.keys s.2.pullInbox
  have last : round build s = s.2.pullInbox.flushAll.map fun h => (s.1, h) := by
    rw [round, idle]
    exact congrArg (fun h => { s.2.pullInbox.flushAll.map fun h => (s.1, h) with
      state := (s.1, h) }) (pullInbox_of_nil _ inbox)
  have leaves : isLast build s = true := by
    have queue : s.2.pullInbox.flushAll.state.shared.queue = s.2.pullInbox.shared.queue := queue
    rw [isLast, last, idle, Outcome.state_map, queue, takeTask?_eq_none_iff.mp idle]
    rfl
  rw [← last]
  cases hf : (round build s).fault with
  | some f => exact .breaks hf
  | none => exact .ends hf leaves

theorem loops_runTasks (build : Build) {n ran : Nat} (hs : h.Sound) (enough : h.work < n) :
    Loops build (ran, h) ((runTasks build n (ran, h)).andThen
      fun s => s.2.flushAll.map fun h => (s.1, h)) := by
  induction n generalizing ran h with
  | zero => exact absurd enough (Nat.not_lt_zero _)
  | succ n ih =>
    rw [runTasks]
    cases ht : h.takeTask? with
    | none => exact loops_of_idle build ht
    | some r =>
      obtain ⟨task, h'⟩ := r
      have here : round build (ran, h) = (h'.runTask build task).map fun h => (ran + 1, h) := by
        rw [round, ht]
      have more : isLast build (ran, h) = false := by
        rw [isLast, ht]
        rfl
      dsimp only
      rw [← here, Outcome.andThen_assoc]
      cases hf : (round build (ran, h)).fault with
      | some f =>
        rw [Outcome.andThen_of_fault hf]
        exact .breaks hf
      | none =>
        have sound := sound_step build hs .runOne
        rw [step_runOne build ht] at sound
        have less := Nat.lt_of_lt_of_le (work_runTask build hs ht) (Nat.le_of_lt_succ enough)
        have rest := Loops.goesOn hf more (by rw [here]; exact ih sound less)
        rw [here] at hf rest ⊢
        simp only [Outcome.andThen, hf] at rest ⊢
        exact rest

/-- A run until idle is what the loop comes to. -/
theorem loops_runUntilIdle (build : Build) (hs : h.Sound) :
    Loops build (0, h) (h.runUntilIdle build) :=
  loops_runTasks build hs (Nat.lt_succ_self _)

/-! ## What is left -/

/-- Nothing is left to do, neither of the host nor of any of its tabs. -/
structure Settled (h : Host σ) : Prop where
  inbox : h.inbox = []
  queue : h.shared.queue.isIdle = true
  active : ∀ tab t, h.tabs.get? tab = some t → t.state = .active
  moves : ∀ tab t, h.tabs.get? tab = some t → t.moves = some {}
  wheel : ∀ tab t, h.tabs.get? tab = some t → t.wheel.pending = none

/-- Where no work waits, no tab is on its way to being deleted. -/
theorem DeletesInOrder.active (hd : h.DeletesInOrder) (idle : h.shared.queue.isIdle = true)
    {t : Tab σ} (ht : h.tabs.get? tab = some t) : t.state = .active := by
  have none : ∀ d : DeletePass, d.tab = tab → t.state ≠ d.stage := by
    rintro d rfl stage
    have once := (hd.once d).mp ((stage?_of_some ht).trans (congrArg some stage))
    rw [RunQueue.passes_of_isIdle idle] at once
    cases once
  rcases hd.stages tab t ht with active | destroying | awaiting
  · exact active
  · exact absurd destroying (none { tab } rfl)
  · exact absurd awaiting (none { tab, ready := true } rfl)

/-- An orderly host settles by what all its tabs dispatch, once no work waits. -/
theorem settled_of_clear (ho : h.Orderly) (hw : h.WheelsFollowed) (inbox : h.inbox = [])
    (idle : h.shared.queue.isIdle = true) (clear : ∀ tab, h.Clear tab) : h.Settled := by
  have active : ∀ tab t, h.tabs.get? tab = some t → t.state = .active :=
    fun tab t ht => ho.order.active idle ht
  refine ⟨inbox, idle, active, fun tab t ht => ?_, fun tab t ht => ?_⟩
  · exact clear tab t ht (by rw [active tab t ht]; rfl)
  · rcases hw tab t ht with wheel | ⟨-, awaits⟩
    · exact wheel.pending
    · exact absurd awaits (RunQueue.not_awaitsWheel_of_isIdle idle)

/-- No work waits, and no tab that is live keeps pointer input back. -/
structure AtRest (h : Host σ) : Prop where
  inbox : h.inbox = []
  queue : h.shared.queue.isIdle = true
  clear : ∀ tab, h.Clear tab

theorem AtRest.flushTabs (hr : h.AtRest) (tabs : List TabId) : h.flushTabs tabs = .ok h := by
  induction tabs with
  | nil => rfl
  | cons first rest ih =>
    have here : h.onTab first Seat.flushInput = .ok h := by
      cases ht : h.tabs.get? first with
      | none => exact onTab_of_none ht _
      | some t =>
        have still : Seat.flushInput { tab := t, shared := h.shared } =
            .ok { tab := t, shared := h.shared } := by
          cases live : t.state.isLive with
          | false => simp only [Seat.flushInput, live, Bool.false_eq_true, if_false]
          | true =>
            simp only [Seat.flushInput, live, if_true, hr.clear first t ht live]
            rfl
        rw [onTab_of_some ht, still]
        show Outcome.ok { h with tabs := h.tabs.insert first t } = _
        rw [Table.insert_of_get?_eq_some ht]
    rw [Host.flushTabs, here, Outcome.ok_andThen, ih]

/-- Where no work waits and nothing is kept back, nothing is done. -/
theorem AtRest.runUntilIdle (hr : h.AtRest) (build : Build) :
    h.runUntilIdle build = .ok (0, h) := by
  have same := h.pullInbox_of_nil hr.inbox
  have idle : h.takeTask? = none := takeTask?_eq_none_iff.mpr (by rw [same]; exact hr.queue)
  have still : h.flushAll = .ok h := hr.flushTabs h.tabs.keys
  rw [Host.runUntilIdle, runTasks, idle]
  dsimp only
  rw [same, Outcome.ok_andThen, still]
  rfl

theorem Settled.runUntilIdle (hs : h.Settled) (build : Build) :
    h.runUntilIdle build = .ok (0, h) :=
  AtRest.runUntilIdle ⟨hs.inbox, hs.queue, fun tab t ht _ => hs.moves tab t ht⟩ build

theorem sound_runTasks (hs : h.Sound) {n ran : Nat}
    (hf : (runTasks build n (ran, h)).fault = none) :
    (runTasks build n (ran, h)).state.2.Sound := by
  have same := runTasks_eq_runs build n ran h
  have sound : (h.runs build (List.replicate n .runOne)).state.Sound :=
    runs_preserves (P := Sound) (fun _ ev _ hs _ => sound_step build hs ev) hs
      (by rw [← same]; exact hf)
  rwa [← same] at sound

/-- A run until idle leaves a host at rest, unless it is stopped. -/
theorem atRest_runUntilIdle (hs : h.Sound) (hf : (h.runUntilIdle build).fault = none) :
    (h.runUntilIdle build).state.2.AtRest := by
  obtain ⟨tasks, flush⟩ := Outcome.fault_andThen_eq_none_iff.mp hf
  obtain ⟨inbox, queue⟩ := idle_runTasks build hs (Nat.lt_succ_self _) tasks
  have state : (h.runUntilIdle build).state.2 =
      (runTasks build (h.work + 1) (0, h)).state.2.flushAll.state := by
    rw [Host.runUntilIdle, Outcome.state_andThen tasks]
    rfl
  rw [state]
  obtain ⟨inbox', queue'⟩ := idle_flushTabs (runTasks build (h.work + 1) (0, h)).state.2.tabs.keys
    (runTasks build (h.work + 1) (0, h)).state.2
  exact ⟨inbox'.trans inbox, (congrArg RunQueue.isIdle queue').trans queue,
    clear_flushAll (sound_runTasks hs tasks) flush⟩

/-! ## All that is done to a host -/

/-- A host that operations lead to short of its end, each of them to its end. -/
def Underway (build : Build) (h : Host σ) : Prop :=
  ∃ settings clock surfaces, ∃ ops : List (Op σ), .event .shutdown ∉ ops ∧
    ((new settings clock surfaces).performs build ops).fault = none ∧
    ((new settings clock surfaces).performs build ops).state = h

theorem Underway.orderly (hu : h.Underway build) : h.Orderly := by
  obtain ⟨settings, clock, surfaces, ops, running, fault, rfl⟩ := hu
  rw [performs_eq_runs] at fault ⊢
  refine orderly_runs build (orderly_new settings clock surfaces) (fun hm => ?_) fault
  rcases mem_eventsOfAll hm with h | h | ⟨_, h⟩
  · exact running h
  · cases h
  · cases h

theorem Underway.wheelsFollowed (hu : h.Underway build) : h.WheelsFollowed := by
  obtain ⟨settings, clock, surfaces, ops, -, fault, rfl⟩ := hu
  exact ((Reachable.new settings clock surfaces).performs fault).wheelsFollowed

/-- A host that works until it is idle is still under way. -/
theorem Underway.runUntilIdle (hu : h.Underway build)
    (hf : (h.runUntilIdle build).fault = none) :
    (h.runUntilIdle build).state.2.Underway build := by
  obtain ⟨settings, clock, surfaces, ops, running, fault, rfl⟩ := hu
  have both : ∀ h : Host σ, h.performs build [.runUntilIdle] = h.start build :=
    fun h => Outcome.andThen_ok _
  refine ⟨settings, clock, surfaces, ops ++ [.runUntilIdle], by simp [running], ?_, ?_⟩
  · rw [performs_append, Outcome.fault_andThen fault, both]
    exact hf
  · rw [performs_append, Outcome.state_andThen fault, both]
    rfl

/-- No tab is to be destroyed where all tabs are active. -/
theorem destroying_of_active (active : ∀ tab t, h.tabs.get? tab = some t → t.state = .active) :
    h.destroying = 0 := by
  refine List.countP_eq_zero.mpr fun t hm => ?_
  obtain ⟨⟨tab, _⟩, hentry, rfl⟩ := List.mem_map.mp hm
  simp [active tab _ (Table.mem_entries_iff.mp hentry)]

theorem orderly_runTasks (ho : h.Orderly) {n ran : Nat}
    (hf : (runTasks build n (ran, h)).fault = none) :
    (runTasks build n (ran, h)).state.2.Orderly := by
  have same := runTasks_eq_runs build n ran h
  have orderly : (h.runs build (List.replicate n .runOne)).state.Orderly :=
    orderly_runs build ho (by simp) (by rw [← same]; exact hf)
  rwa [← same] at orderly

/-- The tasks of a run until idle are those that waited, the second passes that were to come, and
two for each destroy that is accepted meanwhile. -/
theorem ran_runUntilIdle (ho : h.Orderly) (hf : (h.runUntilIdle build).fault = none) :
    (h.runUntilIdle build).state.1 =
      h.waiting + h.destroying + 2 * h.destroysIn build (h.idleEvents build) := by
  obtain ⟨tasks, -⟩ := Outcome.fault_andThen_eq_none_iff.mp hf
  have fault : (h.runs build (List.replicate (h.work + 1) .runOne)).fault = none := by
    rw [← runTasks_eq_runs build _ 0]
    exact tasks
  obtain ⟨inbox, queue⟩ := idle_runTasks build ho.sound (Nat.lt_succ_self _) tasks
  have orderly := orderly_runTasks ho tasks
  have ran := ran_runTasks build (h.work + 1) 0 ho.sound tasks
  have waiting : (runTasks build (h.work + 1) (0, h)).state.2.waiting = 0 := by
    rw [Host.waiting, inbox, RunQueue.size_of_isIdle queue]
    rfl
  have destroying := destroying_of_active fun _ _ => orderly.order.active queue
  have counted : (h.runUntilIdle build).state.1 =
      (runTasks build (h.work + 1) (0, h)).state.1 := by
    rw [runUntilIdle, Outcome.state_andThen tasks]
    rfl
  rw [counted, idleEvents, destroysIn_append build fault, destroysIn_flush]
  omega

/-- A run until idle that comes to its end without a fault settles the host. -/
theorem settled_runUntilIdle (hu : h.Underway build)
    (hf : (h.runUntilIdle build).fault = none) : (h.runUntilIdle build).state.2.Settled := by
  have after := hu.runUntilIdle hf
  have rest := atRest_runUntilIdle hu.orderly.sound hf
  exact settled_of_clear after.orderly after.wheelsFollowed rest.inbox rest.queue rest.clear

/-- Whatever a host was asked to do short of its end, a run until idle comes to its end, and to
one only. Without a fault nothing is left to do then, and nothing is done when the host is asked
again. As many tasks were done as there were envelopes and passes that waited and tabs that were
to be destroyed, and two for each destroy that was accepted meanwhile. -/
theorem settles (build : Build) (hu : h.Underway build) :
    (∀ o, Loops build (0, h) o ↔ o = h.runUntilIdle build) ∧
    ((h.runUntilIdle build).fault = none →
      (h.runUntilIdle build).state.2.Settled ∧
      (h.runUntilIdle build).state.1 =
        h.waiting + h.destroying + 2 * h.destroysIn build (h.idleEvents build) ∧
      (h.runUntilIdle build).state.2.runUntilIdle build =
        .ok (0, (h.runUntilIdle build).state.2)) := by
  have ends := loops_runUntilIdle build hu.orderly.sound
  refine ⟨fun o => ⟨fun loops => loops.unique ends, fun heq => heq ▸ ends⟩, fun hf => ?_⟩
  have settled := settled_runUntilIdle hu hf
  exact ⟨settled, ran_runUntilIdle hu.orderly hf, settled.runUntilIdle build⟩

/-- A move of a pointer. -/
def moveOf (pointer : PointerId) : PointerMove := { pointer := pointer, position := {} }

/-- Three tabs: a move is kept back for the first one, the pass of a delete waits for the second
one, and a destroy for the third one is in the inbox. -/
def unsettled : Host Headless :=
  ((new {} .zero {}).performs .checked
    [.event (.create { value := 7 } { reentrant := [.move (moveOf ⟨2⟩)] }),
      .event (.create { value := 8 } {}), .event (.create { value := 9 } {}),
      .event (.post { tab := { value := 7 }, request := .pointerMove (moveOf ⟨1⟩) }),
      .event .runOne, .event (.destroy { value := 8 }),
      .event (.post { tab := { value := 9 }, request := .destroy })]).state

/-- Two envelopes and passes wait, one tab is to be destroyed, and one more will be. The first tab
dispatches the move that it kept back, and the one that its content pushes then. -/
theorem settles_unsettled :
    (unsettled.runUntilIdle .checked).state.1 = 2 + 1 + 2 * 1 ∧
    (unsettled.runUntilIdle .checked).state.2.Settled ∧
    handed ⟨7⟩ (unsettled.runUntilIdle .checked).trace =
      [.move (moveOf ⟨1⟩), .move (moveOf ⟨2⟩)] := by
  have underway : unsettled.Underway .checked := ⟨{}, .zero, {}, _, by simp, by rfl, rfl⟩
  obtain ⟨settled, ran, -⟩ := (settles .checked underway).2 (by rfl)
  exact ⟨ran, settled, by rfl⟩

end Host

end TabHost
