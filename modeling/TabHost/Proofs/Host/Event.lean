import TabHost.Proofs.Tab.Turn
import TabHost.Host.Run

/-!
# What happens to a host

An `Event` is the smallest thing that can happen to a host from outside, and an `Op` is an
event or a run until the host is idle. A run until idle is a run of events, too: it does
one task after the other, and then lets one tab after the other dispatch what it kept back
(`Host.start_eq_runs`). So a property of every event is one of every operation
(`Host.performs_eq_runs`).

A host is reachable if operations lead to it from a host without tabs, each of them to its
end.
-/

set_option linter.unusedSectionVars false

namespace TabHost

/-- Something that happens to a host. -/
inductive Event (σ : Type) where
  /-- A tab is created over a link into the stream that all tabs share. -/
  | create (tab : TabId) (content : σ)
  /-- A tab is created over a link of its own, whose other end is there or not. -/
  | createOver (tab : TabId) (content : σ) (heard : Bool)
  | post (e : Envelope)
  /-- The task that is due is done. -/
  | runOne
  /-- A tab dispatches what it kept back. -/
  | flush (tab : TabId)
  | addBlocker (tab : TabId)
  | removeBlocker (tab : TabId)
  | destroy (tab : TabId)
  /-- Content of a tab pushes an event into it, outside of any dispatch. -/
  | push (tab : TabId) (e : PointerEvent)
  /-- The other end of a tab's own link goes away. -/
  | hangUp (tab : TabId)
  | setClock (t : Duration)
  /-- Somebody else changes the surfaces. -/
  | surfaces (f : Surfaces → Surfaces)
  | shutdown

/-- Whether somebody else changes the surfaces. -/
def Event.isForeign {σ : Type} : Event σ → Bool
  | .surfaces _ => true
  | _ => false

/-- Something that is asked of a host. -/
inductive Op (σ : Type) where
  | event (ev : Event σ)
  /-- The host works until there is nothing left to do. -/
  | runUntilIdle

/-- Whether somebody else changes the surfaces. -/
def Op.isForeign {σ : Type} : Op σ → Bool
  | .event ev => ev.isForeign
  | .runUntilIdle => false

namespace Host

variable {σ : Type} [Content σ]

/-! ## Events -/

/-- Creates a tab, unless there is one of that id. -/
def createIfNew (tab : TabId) (content : σ) (link : ParentLink) (h : Host σ) :
    Outcome Effect (Host σ) :=
  match h.create? tab content link with
  | .error _ => .ok h
  | .ok o => o

/-- What an event does. -/
def step (build : Build) : Event σ → Host σ → Outcome Effect (Host σ)
  | .create tab content, h => h.createIfNew tab content { tab := tab }
  | .createOver tab content heard, h =>
    h.createIfNew tab content { tab := tab, route := .own, heard := heard }
  | .post e, h => .ok (h.post e)
  | .runOne, h => h.runOne build
  | .flush tab, h => h.onTab tab Seat.flushInput
  | .addBlocker tab, h => h.addBlocker build tab
  | .removeBlocker tab, h => h.removeBlocker build tab
  | .destroy tab, h => h.destroy build tab
  | .push tab e, h => .ok (h.push tab e)
  | .hangUp tab, h => h.onTab tab Seat.hangUp
  | .setClock t, h => .ok (h.setClock t)
  | .surfaces f, h => .ok (h.onSurfaces f)
  | .shutdown, h => h.shutdown

/-- What some events do, one after the other. -/
def runs (build : Build) : List (Event σ) → Host σ → Outcome Effect (Host σ)
  | [], h => .ok h
  | ev :: rest, h => (h.step build ev).andThen (runs build rest)

theorem runs_append (build : Build) (as bs : List (Event σ)) (h : Host σ) :
    h.runs build (as ++ bs) = (h.runs build as).andThen (runs build bs) := by
  induction as generalizing h with
  | nil => rfl
  | cons ev as ih =>
    simp only [List.cons_append, runs, Outcome.andThen_assoc]
    congr 1
    funext h
    exact ih h

theorem runs_singleton (build : Build) (ev : Event σ) (h : Host σ) :
    h.runs build [ev] = h.step build ev :=
  Outcome.andThen_ok _

/-- What stops some events is the first of them that is stopped. -/
theorem fault_runs_eq_some_iff (build : Build) {evs : List (Event σ)} {h : Host σ} {f : Fault} :
    (h.runs build evs).fault = some f ↔ ∃ first ev rest, evs = first ++ ev :: rest ∧
      (h.runs build first).fault = none ∧
      ((h.runs build first).state.step build ev).fault = some f := by
  constructor
  · induction evs generalizing h with
    | nil =>
      intro hf
      cases hf
    | cons ev rest ih =>
      intro hf
      rw [runs] at hf
      cases here : (h.step build ev).fault with
      | some g =>
        rw [Outcome.andThen_of_fault here] at hf
        exact ⟨[], ev, rest, rfl, rfl, hf⟩
      | none =>
        rw [Outcome.fault_andThen here] at hf
        obtain ⟨first, ev', rest', rfl, ends, stops⟩ := ih hf
        refine ⟨ev :: first, ev', rest', rfl, ?_, ?_⟩
        · rw [runs, Outcome.fault_andThen here]
          exact ends
        · rw [runs, Outcome.state_andThen here]
          exact stops
  · rintro ⟨first, ev, rest, rfl, ends, stops⟩
    rw [runs_append, Outcome.fault_andThen ends, runs, Outcome.andThen_of_fault stops]
    exact stops

/-! ## A run until idle is a run of events -/

/-- A host without work has nothing due, however often it is asked. -/
theorem runs_runOne_of_idle (build : Build) {h : Host σ} (hi : h.inbox = [])
    (ht : h.takeTask? = none) (n : Nat) :
    h.runs build (List.replicate n .runOne) = .ok h := by
  have same : h.pullInbox = h := by
    rw [pullInbox, hi]
    cases h
    cases hi
    rfl
  induction n with
  | zero => rfl
  | succ n ih =>
    have one : h.step build .runOne = .ok h := by rw [step, runOne, ht, same]
    rw [List.replicate_succ, runs, one, Outcome.ok_andThen, ih]

/-- Tasks are done by so many events, and what is over finds nothing to do. -/
theorem runTasks_eq_runs (build : Build) (n ran : Nat) (h : Host σ) :
    (runTasks build n (ran, h)).map Prod.snd = h.runs build (List.replicate n .runOne) := by
  induction n generalizing ran h with
  | zero => rfl
  | succ n ih =>
    rw [List.replicate_succ, runs, runTasks]
    cases ht : h.takeTask? with
    | none =>
      have idle : h.pullInbox.takeTask? = none := by
        simpa [takeTask?, pullInbox] using ht
      rw [step, runOne, ht, Outcome.ok_andThen, runs_runOne_of_idle build rfl idle]
      rfl
    | some r =>
      obtain ⟨t, h'⟩ := r
      rw [step, runOne, ht]
      exact Outcome.map_andThen (fun s => ih s.1 s.2) _

theorem flushTabs_eq_runs (build : Build) (tabs : List TabId) (h : Host σ) :
    h.flushTabs tabs = h.runs build (tabs.map .flush) := by
  induction tabs generalizing h with
  | nil => rfl
  | cons tab rest ih =>
    rw [List.map_cons, runs, flushTabs]
    congr 1
    funext h
    exact ih h

/-- The events that make up a run until idle. -/
def idleEvents (build : Build) (h : Host σ) : List (Event σ) :=
  let tasks := List.replicate (h.work + 1) .runOne
  tasks ++ (h.runs build tasks).state.tabs.keys.map .flush

theorem start_eq_runs (build : Build) (h : Host σ) :
    h.start build = h.runs build (h.idleEvents build) := by
  have tasks := runTasks_eq_runs build (h.work + 1) 0 h
  have flushed : ∀ s : Nat × Host σ,
      (s.2.flushAll.map fun h => (s.1, h)).map Prod.snd = s.2.flushAll := fun _ => rfl
  rw [start, runUntilIdle, Outcome.map_andThen flushed, tasks, idleEvents, runs_append]
  exact Outcome.andThen_congr (flushTabs_eq_runs build _ _)

/-! ## Operations -/

/-- What an operation does. -/
def perform (build : Build) : Op σ → Host σ → Outcome Effect (Host σ)
  | .event ev, h => h.step build ev
  | .runUntilIdle, h => h.start build

/-- What some operations do, one after the other. -/
def performs (build : Build) : List (Op σ) → Host σ → Outcome Effect (Host σ)
  | [], h => .ok h
  | op :: rest, h => (h.perform build op).andThen (performs build rest)

theorem performs_append (build : Build) (as bs : List (Op σ)) (h : Host σ) :
    h.performs build (as ++ bs) = (h.performs build as).andThen (performs build bs) := by
  induction as generalizing h with
  | nil => rfl
  | cons op as ih =>
    simp only [List.cons_append, performs, Outcome.andThen_assoc]
    congr 1
    funext h
    exact ih h

/-- The events that make up an operation. -/
def eventsOf (build : Build) : Op σ → Host σ → List (Event σ)
  | .event ev, _ => [ev]
  | .runUntilIdle, h => h.idleEvents build

/-- The events that make up some operations. -/
def eventsOfAll (build : Build) : List (Op σ) → Host σ → List (Event σ)
  | [], _ => []
  | op :: rest, h => h.eventsOf build op ++ eventsOfAll build rest (h.perform build op).state

theorem perform_eq_runs (build : Build) (op : Op σ) (h : Host σ) :
    h.perform build op = h.runs build (h.eventsOf build op) := by
  cases op with
  | event ev => exact (runs_singleton build ev h).symm
  | runUntilIdle => exact start_eq_runs build h

theorem performs_eq_runs (build : Build) (ops : List (Op σ)) (h : Host σ) :
    h.performs build ops = h.runs build (h.eventsOfAll build ops) := by
  induction ops generalizing h with
  | nil => rfl
  | cons op rest ih =>
    rw [performs, eventsOfAll, runs_append, perform_eq_runs]
    exact Outcome.andThen_congr (ih _)

/-- A run until idle does tasks and flushes. -/
theorem mem_eventsOf {build : Build} {op : Op σ} {h : Host σ} {ev : Event σ}
    (he : ev ∈ h.eventsOf build op) :
    op = .event ev ∨ ev = .runOne ∨ ∃ tab, ev = .flush tab := by
  cases op with
  | event ev' =>
    rw [List.mem_singleton.mp he]
    exact Or.inl rfl
  | runUntilIdle =>
    rcases List.mem_append.mp he with he | he
    · exact Or.inr (Or.inl (List.mem_replicate.mp he).2)
    · obtain ⟨tab, -, rfl⟩ := List.mem_map.mp he
      exact Or.inr (Or.inr ⟨tab, rfl⟩)

/-- A run until idle does not end all tabs. -/
theorem shutdown_not_mem_idleEvents (build : Build) (h : Host σ) :
    .shutdown ∉ h.idleEvents build := by
  intro hm
  have cases := mem_eventsOf (show .shutdown ∈ h.eventsOf build .runUntilIdle from hm)
  rcases cases.resolve_left (by simp) with heq | ⟨tab, heq⟩ <;> cases heq

/-- A host that is asked for some operations does tasks and flushes besides. -/
theorem mem_eventsOfAll {build : Build} {ops : List (Op σ)} {h : Host σ} {ev : Event σ}
    (he : ev ∈ h.eventsOfAll build ops) :
    .event ev ∈ ops ∨ ev = .runOne ∨ ∃ tab, ev = .flush tab := by
  induction ops generalizing h with
  | nil => exact absurd he List.not_mem_nil
  | cons op rest ih =>
    rcases List.mem_append.mp he with he | he
    · refine (mem_eventsOf he).imp_left ?_
      rintro rfl
      exact List.mem_cons_self
    · exact (ih he).imp_left fun h => List.mem_cons_of_mem _ h

/-! ## Reachable hosts -/

/-- A host without tabs. -/
def new (settings : Settings) (clock : Duration) (surfaces : Surfaces) : Host σ :=
  { settings := settings, shared := { clock := clock, surfaces := surfaces } }

/-- A host that operations lead to, each of them to its end. -/
inductive Reachable (build : Build) : Host σ → Prop
  | new (settings : Settings) (clock : Duration) (surfaces : Surfaces) :
      Reachable build (new settings clock surfaces)
  | perform {h : Host σ} (hr : Reachable build h) (op : Op σ)
      (hf : (h.perform build op).fault = none) : Reachable build (h.perform build op).state

theorem Reachable.performs {build : Build} {ops : List (Op σ)} {h : Host σ}
    (hr : h.Reachable build) (hf : (h.performs build ops).fault = none) :
    (h.performs build ops).state.Reachable build := by
  induction ops generalizing h with
  | nil => exact hr
  | cons op rest ih =>
    obtain ⟨first, later⟩ := Outcome.fault_andThen_eq_none_iff.mp hf
    rw [Host.performs, Outcome.state_andThen first]
    exact ih (hr.perform op first) later

/-- What is kept by every one of some events that come to their ends is kept by all of
them. -/
theorem runs_preserves {build : Build} {P : Host σ → Prop} {evs : List (Event σ)}
    (step : ∀ h, ∀ ev ∈ evs, P h → (h.step build ev).fault = none → P (h.step build ev).state)
    {h : Host σ} (hp : P h) (hf : (h.runs build evs).fault = none) :
    P (h.runs build evs).state := by
  induction evs generalizing h with
  | nil => exact hp
  | cons ev rest ih =>
    obtain ⟨first, later⟩ := Outcome.fault_andThen_eq_none_iff.mp hf
    rw [runs, Outcome.state_andThen first]
    refine ih ?_ (step h ev List.mem_cons_self hp first) later
    intro h ev' he
    exact step h ev' (List.mem_cons_of_mem _ he)

theorem Reachable.runs {build : Build} {evs : List (Event σ)} {h : Host σ}
    (hr : h.Reachable build) (hf : (h.runs build evs).fault = none) :
    (h.runs build evs).state.Reachable build :=
  runs_preserves (P := fun h => h.Reachable build) (fun _ ev _ hr hf => hr.perform (.event ev) hf)
    hr hf

/-- What holds of a host without tabs, and is kept by every event that comes to its end,
holds of every reachable host. -/
theorem Reachable.induct {build : Build} {P : Host σ → Prop}
    (new : ∀ settings clock surfaces, P (.new settings clock surfaces))
    (step : ∀ h ev, P h → (h.step build ev).fault = none → P (h.step build ev).state)
    {h : Host σ} (hr : h.Reachable build) : P h := by
  induction hr with
  | new settings clock surfaces => exact new settings clock surfaces
  | perform _ op hf ih =>
    rw [perform_eq_runs] at hf ⊢
    exact runs_preserves (fun h ev _ => step h ev) ih hf

end Host

end TabHost
