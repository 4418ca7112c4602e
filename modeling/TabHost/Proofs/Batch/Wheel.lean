import Mathlib.Data.List.Induction
import TabHost.Content.Headless
import TabHost.Proofs.Content.Reactions

/-!
# Wheel events in runs

A batch of wheel events is idle when nothing is held back and content is not taken to be busy.
Only an event that is followed by another one may leave the batch otherwise
(`WheelBatch.isIdle_handle`).

Whatever a batch is asked, it divides the events that it handles, in their order, into runs of
events that go together (`WheelRun`). Content is handed one event for each run, the last of the
run with the deltas of all added up, and the last run may be held back
(`WheelBatch.divides_stream`). An event that is a marker or is not followed, or comes when content
is not taken to be busy, is a run of its own, which content is handed at once.
-/

set_option linter.unusedSectionVars false

namespace TabHost

/-! ## Runs -/

/-- Wheel events that may be added up: one, or some that are no markers and compatible. -/
structure WheelRun where
  first : WheelEvent
  rest : List WheelEvent := []
  alike : ∀ e ∈ rest,
    first.phase = .delta ∧ e.phase = .delta ∧ e.compatibility = first.compatibility

namespace WheelRun

/-- The events of a run, in their order. -/
def events (run : WheelRun) : List WheelEvent := run.first :: run.rest

def last (run : WheelRun) : WheelEvent := run.rest.getLastD run.first

/-- Some quantity of all events, added up from the left to the right. -/
def sum (run : WheelRun) (quantity : WheelEvent → Float) : Float :=
  (run.rest.map quantity).foldl (· + ·) (quantity run.first)

/-- The last event of a run, with the deltas of all. -/
def total (run : WheelRun) : WheelEvent :=
  { run.last with
    deltaX := run.sum WheelEvent.deltaX
    deltaY := run.sum WheelEvent.deltaY
    deltaZ := run.sum WheelEvent.deltaZ }

/-- A run of one event. -/
def single (e : WheelEvent) : WheelRun :=
  { first := e
    alike := fun _ h => absurd h List.not_mem_nil }

/-- A run with one more event. -/
def concat (run : WheelRun) (e : WheelEvent) (first : run.first.phase = .delta)
    (phase : e.phase = .delta) (fits : e.compatibility = run.first.compatibility) : WheelRun :=
  { first := run.first
    rest := run.rest ++ [e]
    alike := by
      intro e' he'
      rcases List.mem_append.mp he' with he' | he'
      · exact run.alike e' he'
      · rw [List.mem_singleton.mp he']
        exact ⟨first, phase, fits⟩ }

variable {run : WheelRun} {e : WheelEvent}

theorem total_single (e : WheelEvent) : (single e).total = e := rfl

theorem events_concat (first : run.first.phase = .delta) (phase : e.phase = .delta)
    (fits : e.compatibility = run.first.compatibility) :
    (run.concat e first phase fits).events = run.events ++ [e] := rfl

theorem sum_concat (first : run.first.phase = .delta) (phase : e.phase = .delta)
    (fits : e.compatibility = run.first.compatibility) (quantity : WheelEvent → Float) :
    (run.concat e first phase fits).sum quantity = run.sum quantity + quantity e := by
  simp only [sum, concat, List.map_append, List.foldl_append]
  rfl

/-- One more event is added to the total. -/
theorem total_concat (first : run.first.phase = .delta) (phase : e.phase = .delta)
    (fits : e.compatibility = run.first.compatibility) :
    (run.concat e first phase fits).total = run.total.add e := by
  have last : (run.concat e first phase fits).last = e := List.getLastD_concat ..
  rw [total, last, sum_concat, sum_concat, sum_concat]
  rfl

theorem compatibility_last (run : WheelRun) :
    run.last.compatibility = run.first.compatibility := by
  unfold last
  rcases List.eq_nil_or_concat run.rest with h | ⟨front, e, h⟩
  · rw [h]
    rfl
  · rw [h, List.concat_eq_append, List.getLastD_concat]
    exact (run.alike e (by rw [h]; simp)).2.2

theorem compatibility_total (run : WheelRun) :
    run.total.compatibility = run.first.compatibility := run.compatibility_last

end WheelRun

variable {σ : Type} [Content σ]

namespace WheelBatch

/-! ## What is left -/

/-- Nothing is held back, and content is not taken to be busy. -/
structure IsIdle (w : WheelBatch) : Prop where
  pending : w.pending = none
  lastProcessed : w.lastProcessed = none

theorem isIdle_empty : IsIdle {} := ⟨rfl, rfl⟩

theorem batch_dispatchPending (s : WheelBatch × Stage σ) :
    (dispatchPending s).state.1 = { s.1 with pending := none } := by
  unfold dispatchPending
  split
  · next h =>
    show s.1 = { s.1 with pending := none }
    rw [← h]
  · rfl

/-- What goes before an event is dispatched with it, and only the end of the last dispatch is
remembered. -/
theorem batch_dispatch_pending (e : WheelEvent) (s : WheelBatch × Stage σ) :
    ((dispatchPending s).andThen (dispatch e)).state.1 = { s.1 with pending := none } := by
  have dispatched : ∀ r : WheelBatch × Stage σ, r.1 = { s.1 with pending := none } →
      (dispatch e r).state.1 = { s.1 with pending := none } := by
    intro r hr
    exact hr
  have first := batch_dispatchPending s
  exact Outcome.andThen_preserves
    (P := fun r : WheelBatch × Stage σ => r.1 = { s.1 with pending := none }) first dispatched

/-- An event that does not count as followed leaves nothing behind. -/
theorem isIdle_handle {e : WheelEvent} {nextIsWheel : Bool} (h : isFollowed e nextIsWheel = false)
    (s : WheelBatch × Stage σ) : (handle e nextIsWheel s).state.1.IsIdle := by
  have dispatched : s.1.holds? e nextIsWheel = some false := by
    rw [holds?, h, if_neg (by simp)]
  simp only [handle, dispatched, h, Bool.false_eq_true, if_false]
  rw [batch_dispatch_pending]
  exact ⟨rfl, rfl⟩

/-- Without batching, what is idle stays idle. -/
theorem isIdle_dispatch (e : WheelEvent) {s : WheelBatch × Stage σ} (h : s.1.IsIdle) :
    ((dispatchPending s).andThen (dispatch e)).state.1.IsIdle := by
  rw [batch_dispatch_pending]
  exact ⟨rfl, h.lastProcessed⟩

end WheelBatch

/-! ## What a batch is asked -/

/-- Something that is asked of a batch of wheel events, with the stage that content is on then. -/
inductive WheelAsk (σ : Type) where
  | handle (e : WheelEvent) (nextIsWheel : Bool) (stage : Stage σ)
  | dispatchPending (stage : Stage σ)

/-- The event that a batch is asked to handle. -/
def WheelAsk.event? : WheelAsk σ → Option WheelEvent
  | .handle e _ _ => some e
  | .dispatchPending _ => none

namespace WheelBatch

variable {w : WheelBatch} {e : WheelEvent} {nextIsWheel : Bool} {ask : WheelAsk σ}
  {asks : List (WheelAsk σ)}

/-- What a batch makes of something that it is asked. -/
def answer (w : WheelBatch) : WheelAsk σ → Outcome Call WheelBatch
  | .handle e nextIsWheel stage => (handle e nextIsWheel (w, stage)).map Prod.fst
  | .dispatchPending stage => (dispatchPending (w, stage)).map Prod.fst

/-- What a batch makes of all that it is asked, one thing after the other. -/
def answers : List (WheelAsk σ) → WheelBatch → Outcome Call WheelBatch
  | [], w => .ok w
  | ask :: rest, w => (w.answer ask).andThen (answers rest)

/-- The call that dispatches what is held back. -/
def pendingCalls (w : WheelBatch) : List Call :=
  (w.pending.map fun r => Call.wheel r.event).toList

/-- An event is not to be held back: it is a marker, or it is not followed by another one, or
content is not taken to be busy at its time. -/
def Passes (w : WheelBatch) (e : WheelEvent) (nextIsWheel : Bool) : Prop :=
  e.phase ≠ .delta ∨ nextIsWheel = false ∨ w.lastProcessed = none ∨
    ∃ last ending, w.lastProcessed = some last ∧ last.add? w.lastDuration = some ending ∧
      ¬e.timestamp < ending

theorem answers_concat (asks : List (WheelAsk σ)) (ask : WheelAsk σ) (w : WheelBatch) :
    w.answers (asks ++ [ask]) = (w.answers asks).andThen fun w => w.answer ask := by
  induction asks generalizing w with
  | nil => exact Outcome.andThen_ok _
  | cons first rest ih =>
    simp only [List.cons_append, answers, Outcome.andThen_assoc]
    congr 1
    funext w
    exact ih w

theorem holds?_of_passes (h : w.Passes e nextIsWheel) : w.holds? e nextIsWheel = some false := by
  unfold holds?
  split
  · next followed =>
    simp only [isFollowed, Bool.and_eq_true, decide_eq_true_eq] at followed
    rcases h with marker | last | idle | ⟨last, ending, processed, ends, late⟩
    · exact absurd followed.2 marker
    · cases followed.1.symm.trans last
    · simp [isBusy?, idle]
    · simp [isBusy?, processed, ends, late]
  · rfl

/-! ## One answer -/

theorem trace_dispatchPending (s : WheelBatch × Stage σ) :
    (dispatchPending s).trace = s.1.pendingCalls := by
  unfold dispatchPending pendingCalls
  cases s.1.pending with
  | none => rfl
  | some r => exact Stage.trace_perform ..

theorem trace_dispatch (e : WheelEvent) (s : WheelBatch × Stage σ) :
    (dispatch e s).trace = [.wheel e] := Stage.trace_perform ..

theorem trace_measure (before : Duration) (e : WheelEvent) (s : WheelBatch × Stage σ) :
    (measure before e s).trace = [] := by
  unfold measure
  dsimp only
  split <;> rfl

theorem pending_measure (before : Duration) (e : WheelEvent) (s : WheelBatch × Stage σ) :
    (measure before e s).state.1.pending = s.1.pending := by
  unfold measure
  dsimp only
  split <;> rfl

/-- What an answer comes to that comes to its end. -/
inductive Answered (w : WheelBatch) : WheelAsk σ → Outcome Call WheelBatch → Prop
  | held {e : WheelEvent} {nextIsWheel : Bool} {stage : Stage σ} (phase : e.phase = .delta)
      (fits : w.isCompatible e = true) (passes : ¬w.Passes e nextIsWheel) :
      Answered w (.handle e nextIsWheel stage) (.ok (w.hold e))
  | passed {e : WheelEvent} {nextIsWheel : Bool} {stage : Stage σ} {o : Outcome Call WheelBatch}
      (pending : o.state.pending = none) (trace : o.trace = w.pendingCalls ++ [.wheel e]) :
      Answered w (.handle e nextIsWheel stage) o
  | dispatched {stage : Stage σ} {o : Outcome Call WheelBatch} (pending : o.state.pending = none)
      (trace : o.trace = w.pendingCalls) : Answered w (.dispatchPending stage) o

/-- An event that is dispatched goes behind what was held back. -/
theorem answered_dispatch {stage : Stage σ} {w' : WheelBatch} (same : w'.pending = w.pending)
    (hf : ((dispatchPending (w', stage)).andThen (dispatch e)).fault = none) :
    ((dispatchPending (w', stage)).andThen (dispatch e)).trace = w.pendingCalls ++ [.wheel e] := by
  have first := (Outcome.fault_andThen_eq_none_iff.mp hf).1
  rw [Outcome.trace_andThen first, trace_dispatchPending, trace_dispatch]
  simp only [pendingCalls, same]

theorem answered_handle {stage : Stage σ}
    (hf : (handle e nextIsWheel (w, stage)).fault = none) :
    Answered w (.handle e nextIsWheel stage) (w.answer (.handle e nextIsWheel stage)) := by
  simp only [answer]
  cases hold : w.holds? e nextIsWheel with
  | none =>
    simp only [handle, hold] at hf
    cases hf
  | some holds =>
    cases holds with
    | true =>
      have taken : handle e nextIsWheel (w, stage) = .ok (w.hold e, stage) := by
        simp only [handle, hold]
      have passes : ¬w.Passes e nextIsWheel := fun passes => by
        cases hold.symm.trans (holds?_of_passes passes)
      rw [taken]
      unfold holds? at hold
      split at hold
      · next followed =>
        simp only [isFollowed, Bool.and_eq_true, decide_eq_true_eq] at followed
        obtain ⟨busy, -, both⟩ := Option.map_eq_some_iff.mp hold
        exact .held followed.2 (Bool.and_eq_true_iff.mp both).2 passes
      · cases hold
    | false =>
      simp only [handle, hold] at hf ⊢
      split at hf
      · next followed =>
        rw [if_pos followed]
        obtain ⟨first, second⟩ := Outcome.fault_andThen_eq_none_iff.mp hf
        refine .passed ?_ ?_
        · rw [Outcome.state_map, Outcome.state_andThen first, pending_measure,
            batch_dispatch_pending]
        · rw [Outcome.trace_map, Outcome.trace_andThen first, trace_measure, List.append_nil]
          exact answered_dispatch rfl first
      · next unfollowed =>
        rw [if_neg unfollowed]
        refine .passed ?_ ?_
        · rw [Outcome.state_map, batch_dispatch_pending]
        · exact answered_dispatch rfl hf

theorem answered (hf : (w.answer ask).fault = none) : Answered w ask (w.answer ask) := by
  cases ask with
  | handle e nextIsWheel stage => exact answered_handle hf
  | dispatchPending stage =>
    refine .dispatched ?_ (trace_dispatchPending (w, stage))
    rw [answer, Outcome.state_map, batch_dispatchPending]

/-! ## All answers -/

/-- Events in the runs that were dispatched, by some calls, and the run that a batch holds back. -/
structure Divides (events : List WheelEvent) (told : List Call) (w : WheelBatch)
    (runs : List WheelRun) (held : Option WheelRun) : Prop where
  events : (runs ++ held.toList).flatMap WheelRun.events = events
  dispatched : told = runs.map fun run => .wheel run.total
  pending : w.pending.map WheelRecord.event = held.map WheelRun.total
  phase : ∀ run ∈ held, run.first.phase = .delta

/-- An event that is not to be held back is a run of its own, which is dispatched, behind all
that was handled before, by the call that handles the event. -/
def PassesAtOnce (w : WheelBatch) (asks : List (WheelAsk σ)) (runs : List WheelRun) : Prop :=
  ∀ before e nextIsWheel stage after, asks = before ++ .handle e nextIsWheel stage :: after →
    (w.answers before).state.Passes e nextIsWheel →
    ∃ front back, runs = front ++ .single e :: back ∧
      front.flatMap WheelRun.events = before.filterMap WheelAsk.event? ∧
      (w.answers (before ++ [.handle e nextIsWheel stage])).trace =
        (front ++ [.single e]).map fun run => .wheel run.total

variable {events : List WheelEvent} {told : List Call} {runs runs' : List WheelRun}
  {held : Option WheelRun}

namespace Divides

theorem nil (h : w.pending = none) : Divides [] [] w [] none :=
  ⟨rfl, rfl, by rw [h]; rfl, fun run hr => by cases hr⟩

/-- What is held back is dispatched as the total of its run. -/
theorem pendingCalls (h : Divides events told w runs held) :
    w.pendingCalls = held.toList.map fun run => .wheel run.total := by
  have total := congrArg (fun e => (e.map Call.wheel).toList) h.pending
  simp only [Option.map_map] at total
  cases held <;> exact total

/-- What is held back, with an event that goes with it. -/
theorem hold (h : Divides events told w runs held) (phase : e.phase = .delta)
    (fits : w.isCompatible e = true) :
    ∃ held, Divides (events ++ [e]) told (w.hold e) runs held := by
  have pending := h.pending
  rw [isCompatible] at fits
  cases hp : w.pending with
  | none =>
    rw [hp] at pending
    cases held with
    | some run => cases pending
    | none =>
      refine ⟨some (.single e), ?_, h.dispatched, ?_, ?_⟩
      · rw [← h.events]
        simp [WheelRun.events, WheelRun.single]
      · rw [WheelBatch.hold, hp]
        rfl
      · rintro run ⟨⟩
        exact phase
  | some r =>
    rw [hp] at pending fits
    cases held with
    | none => cases pending
    | some run =>
      have first := h.phase run rfl
      have total : r.event = run.total := Option.some.inj pending
      have fits : e.compatibility = run.first.compatibility := by
        rw [← run.compatibility_total, ← total]
        exact (decide_eq_true_eq.mp fits).symm
      refine ⟨some (run.concat e first phase fits), ?_, h.dispatched, ?_, ?_⟩
      · rw [← h.events]
        simp [WheelRun.events_concat]
      · rw [WheelBatch.hold, hp]
        show some (r.event.add e) = some (run.concat e first phase fits).total
        rw [WheelRun.total_concat, total]
      · rintro _ ⟨⟩
        exact first

/-- All that was handled is dispatched, with some more. -/
theorem dispatch (h : Divides events told w runs held) (more : List WheelRun) {w' : WheelBatch}
    (pending : w'.pending = none) :
    Divides (events ++ more.flatMap WheelRun.events)
      (told ++ (w.pendingCalls ++ more.map fun run => .wheel run.total)) w'
      (runs ++ held.toList ++ more) none := by
  refine ⟨?_, ?_, by rw [pending]; rfl, fun run hr => by cases hr⟩
  · rw [← h.events]
    simp
  · rw [h.dispatched, h.pendingCalls]
    simp

/-- With one more answer, the runs that were dispatched stay, and an event that is not to be held
back is the last of them. -/
theorem answer (h : Divides events told w runs held) {o : Outcome Call WheelBatch}
    (what : Answered w ask o) : ∃ runs' held',
    Divides (events ++ ask.event?.toList) (told ++ o.trace) o.state runs' held' ∧ runs <+: runs' ∧
      ∀ e nextIsWheel stage, ask = .handle e nextIsWheel stage → w.Passes e nextIsWheel →
        ∃ front, runs' = front ++ [.single e] ∧ front.flatMap WheelRun.events = events := by
  cases what with
  | held phase fits passes =>
    obtain ⟨held', divides⟩ := h.hold phase fits
    refine ⟨runs, held', ?_, List.prefix_rfl, ?_⟩
    · rw [Outcome.trace_ok, List.append_nil]
      exact divides
    · rintro e' next' stage' ⟨⟩ passes'
      exact absurd passes' passes
  | @passed e _ _ _ pending trace =>
    have divides := h.dispatch [.single e] pending
    refine ⟨runs ++ held.toList ++ [.single e], none, ?_, by simp, ?_⟩
    · rw [trace]
      exact divides
    · rintro e' next' stage' ⟨⟩ -
      exact ⟨runs ++ held.toList, rfl, h.events⟩
  | dispatched pending trace =>
    have divides := h.dispatch [] pending
    refine ⟨runs ++ held.toList ++ [], none, ?_, by simp, ?_⟩
    · rw [trace, ← List.append_nil w.pendingCalls]
      exact divides
    · rintro e' next' stage' ⟨⟩

end Divides

/-- One more thing that a batch is asked does not concern the runs that were dispatched. -/
theorem PassesAtOnce.concat (h : PassesAtOnce w asks runs) (grows : runs <+: runs')
    (last : ∀ e nextIsWheel stage, ask = .handle e nextIsWheel stage →
      (w.answers asks).state.Passes e nextIsWheel →
      ∃ front, runs' = front ++ [.single e] ∧
        front.flatMap WheelRun.events = asks.filterMap WheelAsk.event?)
    (trace : (w.answers (asks ++ [ask])).trace = runs'.map fun run => .wheel run.total) :
    PassesAtOnce w (asks ++ [ask]) runs' := by
  intro before e nextIsWheel stage after heq passes
  rcases List.eq_nil_or_concat after with rfl | ⟨after', ask', rfl⟩
  · obtain ⟨rfl, rfl⟩ : asks = before ∧ ask = .handle e nextIsWheel stage := by
      simpa using heq
    obtain ⟨front, rfl, events⟩ := last e nextIsWheel stage rfl passes
    exact ⟨front, [], rfl, events, trace⟩
  · rw [List.concat_eq_append, ← List.cons_append, ← List.append_assoc] at heq
    obtain ⟨rfl, -⟩ := List.append_inj' heq rfl
    obtain ⟨front, back, rfl, events, first⟩ := h before e nextIsWheel stage after' rfl passes
    obtain ⟨more, rfl⟩ := grows
    exact ⟨front, back ++ more, by simp, events, first⟩

/-- Whatever a batch is asked that holds nothing back, the events that it handles are divided into
runs, in their order. Content is handed the total of each run, and of the last one the total may
be held back. -/
theorem divides_stream {w : WheelBatch} (fresh : w.pending = none) (asks : List (WheelAsk σ))
    (fault : (w.answers asks).fault = none) :
    ∃ runs held, Divides (asks.filterMap WheelAsk.event?) (w.answers asks).trace
        (w.answers asks).state runs held ∧ PassesAtOnce w asks runs := by
  induction asks using List.reverseRecOn with
  | nil =>
    refine ⟨[], none, .nil fresh, fun before e nextIsWheel stage after heq => ?_⟩
    exact absurd heq.symm (by simp)
  | append_singleton asks ask ih =>
    have all := answers_concat asks ask w
    rw [all] at fault
    obtain ⟨first, last⟩ := Outcome.fault_andThen_eq_none_iff.mp fault
    obtain ⟨runs, held, divides, atOnce⟩ := ih first
    obtain ⟨runs', held', divides', grows, passes⟩ := divides.answer (answered last)
    have one : [ask].filterMap WheelAsk.event? = ask.event?.toList := by
      cases ask <;> rfl
    have trace : (w.answers (asks ++ [ask])).trace = runs'.map fun run => .wheel run.total := by
      rw [all, Outcome.trace_andThen first]
      exact divides'.dispatched
    refine ⟨runs', held', ?_, atOnce.concat grows passes trace⟩
    rw [all, Outcome.trace_andThen first, Outcome.state_andThen first, List.filterMap_append, one]
    exact divides'

/-- Four wheel events, a millisecond apart and the last of them a marker, while content takes ten
milliseconds for each. -/
def scroll : List (WheelAsk Headless) :=
  [(0, .delta), (1000000, .delta), (2000000, .delta), (3000000, .stop)].map fun x =>
    .handle { timestamp := .ofNanos x.1, phase := x.2 } true
      { content := { cost := .ofNanos 10000000 }, clock := .zero, queue := [] }

/-- Content is handed the first event, the next two in one, and the marker. -/
theorem divides_stream_scroll :
    (({} : WheelBatch).answers scroll).trace.length = 3 ∧
    ∃ runs held, Divides (scroll.filterMap WheelAsk.event?) (({} : WheelBatch).answers scroll).trace
        (({} : WheelBatch).answers scroll).state runs held ∧ PassesAtOnce {} scroll runs :=
  ⟨by rfl, divides_stream rfl _ (by rfl)⟩

end WheelBatch

end TabHost
