import TabHost.Content.Basic
import TabHost.Outcome

/-!
# Dispatching to content

A `Stage` is content in its surroundings while it handles events: the clock that its work
moves on, and the queue into which it may push pointer events. `Stage.drain` dispatches
the queue until it is empty, in order, events that are pushed meanwhile included.
-/

namespace TabHost

/-- Content, the clock, and the queue of pointer events that wait for dispatch. -/
structure Stage (σ : Type) where
  content : σ
  clock : Duration
  queue : List PointerEvent

namespace Stage

variable {σ : Type} [Content σ]

/-- The call and the reaction of content: the clock moves on by its cost and what it
pushed is queued. Where the clock has no such time, the call is all that happens. -/
def perform (call : Call) (r : Reaction σ) (s : Stage σ) : Outcome Call (Stage σ) :=
  match s.clock.add? r.cost with
  | none => { state := s, trace := [call], fault := some .durationOverflow }
  | some clock =>
    .emit call { content := r.content, clock := clock, queue := s.queue ++ r.pushed }

/-- Dispatches a pointer event. -/
def pointer (e : PointerEvent) (s : Stage σ) : Outcome Call (Stage σ) :=
  s.perform (.pointer e) (Content.pointer e s.content)

/-- Dispatches a wheel event. -/
def wheel (e : WheelEvent) (s : Stage σ) : Outcome Call (Stage σ) :=
  s.perform (.wheel e) (Content.wheel e s.content)

/-- What content answers to a key event. -/
def keyStatus (e : KeyEvent) (s : Stage σ) : EventStatus := Content.keyStatus e s.content

/-- Dispatches a key event. -/
def key (e : KeyEvent) (s : Stage σ) : Outcome Call (Stage σ) :=
  s.perform (.key e (s.keyStatus e)) (Content.key e s.content)

/-- How many pointer events can still be dispatched: those in the queue and those that
content can push. -/
def outstanding (s : Stage σ) : Nat := s.queue.length + Content.backlog s.content

/-- Dispatches at most so many pointer events of the queue. -/
def drainWithin : Nat → Stage σ → Outcome Call (Stage σ)
  | 0, s => .ok s
  | n + 1, s =>
    match s.queue with
    | [] => .ok s
    | e :: rest => (pointer e { s with queue := rest }).andThen (drainWithin n)

/-- Dispatches pointer events until the queue is empty. -/
def drain (s : Stage σ) : Outcome Call (Stage σ) := drainWithin s.outstanding s

/-! ## The queue gets empty -/

/-- A dispatched event is no longer outstanding. -/
theorem outstanding_pointer {e : PointerEvent} {rest : List PointerEvent} {s : Stage σ}
    (h : s.queue = e :: rest) :
    (pointer e { s with queue := rest }).fault = none →
      (pointer e { s with queue := rest }).state.outstanding + 1 ≤ s.outstanding := by
  have hb := Content.backlog_pointer e s.content
  unfold pointer perform
  split
  · intro hf
    cases hf
  · intro _
    simp only [outstanding, Outcome.emit, List.length_append, h, List.length_cons]
    omega

theorem queue_drainWithin :
    ∀ (n : Nat) (s : Stage σ), s.outstanding ≤ n → (drainWithin n s).fault = none →
      (drainWithin n s).state.queue = []
  | 0, s, hn, _ => by
    unfold outstanding at hn
    show s.queue = []
    exact List.eq_nil_of_length_eq_zero (by omega)
  | n + 1, s, hn, hf => by
    cases hq : s.queue with
    | nil => simp [drainWithin, hq, Outcome.ok]
    | cons e rest =>
      simp only [drainWithin, hq] at hf ⊢
      cases hp : (pointer e { s with queue := rest }).fault with
      | some f => simp [Outcome.andThen_of_fault hp, hp] at hf
      | none =>
        rw [Outcome.state_andThen hp]
        rw [Outcome.fault_andThen hp] at hf
        have := outstanding_pointer hq hp
        exact queue_drainWithin n _ (by omega) hf

/-- Draining leaves nothing in the queue. -/
theorem queue_drain (s : Stage σ) (hf : s.drain.fault = none) : s.drain.state.queue = [] :=
  queue_drainWithin _ s (Nat.le_refl _) hf

end Stage

end TabHost
