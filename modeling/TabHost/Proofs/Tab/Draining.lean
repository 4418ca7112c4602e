import TabHost.Proofs.Batch.Burst
import TabHost.Tab.Input

/-!
# Draining the queue of a tab

A drain works off the queue of a batch in the order of arrival, whatever the queue holds and
whatever content pushes meanwhile (`Draining.DrainsInOrder`). The drain of a tab is such a loop
on the batch of the tab (`Draining.exists_loops_seat`). Content without a document pushes all that
it has with the first event that it is handed, so the number of events it is handed can be told
beforehand (`Draining.headlessCount`).
-/

namespace TabHost

namespace Draining

variable {σ : Type} {react : Handler σ} {d : Draining σ} {b : MoveBatch} {clock : Duration}

/-! ## The drain of a tab -/

/-- The seat with what a drain has come to. -/
def toSeat (s : Seat σ) (d : Draining σ) : Seat σ :=
  { tab := { s.tab with content := d.content, moves := some d.batch }
    shared := { s.shared with clock := d.clock } }

/-- With content that bounds what it pushes, the drain of a tab is what the loop comes to. -/
theorem exists_loops_seat [Content σ] {s : Seat σ} (moves : s.tab.moves = some b)
    (time : s.shared.clock = clock) : ∃ o, Loops Content.pointer (start b s.tab.content clock) o ∧
      s.drain = (o.map (toSeat s)).lift (.call s.tab.id) := by
  obtain ⟨o, loops, same⟩ := exists_loops_drain (start b s.tab.content clock)
  obtain ⟨es, works⟩ := loops.worksOff
  have onStage : s.stage = (start b s.tab.content clock).stage := by
    rw [Seat.stage, moves, time]
    rfl
  -- the records are not on stage, and the loop leaves them alone
  have left : s.leaveStage o.state.stage = toSeat s o.state := by
    have kept : ({ b with queue := o.state.batch.queue } : MoveBatch) = o.state.batch := by
      rw [← show o.state.batch.pending = b.pending from works.pending]
    rw [Seat.leaveStage, moves, toSeat, ← kept]
    rfl
  refine ⟨o, loops, ?_⟩
  rw [Seat.drain, Seat.perform, onStage, ← same]
  simp only [Outcome.map, left]

/-! ## Content without a document -/

theorem pushed_of_spent (h : Headless) (spent : h.reentrant = []) (es : List PointerEvent) :
    Handler.pushed Content.pointer h es = [] := by
  induction es generalizing h with
  | nil => rfl
  | cons e es ih =>
    show h.pointer.pushed ++ Handler.pushed Content.pointer h.pointer.content es = []
    unfold Headless.pointer
    split
    · rw [ih _ rfl, spent]
      rfl
    · exact ih h spent

/-- With the first event that it is handed it pushes all that it has. -/
theorem pushed_of_attached {h : Headless} (attached : h.attached = true) (e : PointerEvent)
    (es : List PointerEvent) : Handler.pushed Content.pointer h (e :: es) = h.reentrant := by
  show h.pointer.pushed ++ Handler.pushed Content.pointer h.pointer.content es = h.reentrant
  rw [Headless.pointer, if_pos attached, pushed_of_spent _ rfl, List.append_nil]

theorem time_headless (h : Headless) (es : List PointerEvent) :
    Handler.time Content.pointer h es = h.cost.nanos * es.length := by
  induction es generalizing h with
  | nil => rfl
  | cons e es ih =>
    have cost : (Content.pointer e h).cost = h.cost := @Headless.cost_react h (.pointer e) rfl
    have kept : (Content.pointer e h).content.cost = h.cost := h.cost_content_react (.pointer e)
    rw [Handler.time, ih, cost, kept, List.length_cons, Nat.mul_succ, Nat.add_comm]

/-- How many events a drain dispatches. -/
def headlessCount (b : MoveBatch) (h : Headless) : Nat :=
  if b.queue = [] then 0 else b.queue.length + h.reentrant.length

theorem headless_loops {h : Headless} {o : Outcome Call (Draining Headless)}
    (attached : h.attached = true)
    (loops : Loops Content.pointer (start b h clock) o) :
    (o.fault = none ↔ clock.nanos + h.cost.nanos * headlessCount b h ≤ Duration.limit) ∧
      (o.fault = none → o.state.dispatched = headlessCount b h) := by
  rw [headlessCount]
  cases queue : b.queue with
  | nil =>
    obtain rfl := loops.unique (.ends queue)
    exact ⟨⟨fun _ => clock.within, fun _ => rfl⟩, fun _ => rfl⟩
  | cons first rest =>
    rw [if_neg (List.cons_ne_nil first rest), ← queue]
    obtain ⟨es, works⟩ := loops.worksOff
    have inTime : o.fault = none ↔ clock.nanos + h.cost.nanos * es.length ≤ Duration.limit := by
      rw [← time_headless h es]
      exact works.inTime
    cases es with
    | nil =>
      -- nothing was dispatched, so nothing took time
      have ends := works.inTime.mpr clock.within
      cases (works.order ends).trans (congrArg (· ++ _) queue)
    | cons e es =>
      have all : (start b h clock).batch.queue ++
          Handler.pushed Content.pointer (start b h clock).content (e :: es) =
            b.queue ++ h.reentrant := congrArg (b.queue ++ ·) (pushed_of_attached attached e es)
      have order : o.fault = none → e :: es = b.queue ++ h.reentrant := fun ends =>
        (works.order ends).trans all
      have atMost : (e :: es).length ≤ b.queue.length + h.reentrant.length := by
        rw [← List.length_append, ← all]
        exact works.begins.length_le
      refine ⟨⟨fun ends => ?_, fun room => ?_⟩, fun ends => ?_⟩
      · rw [← List.length_append, ← order ends]
        exact inTime.mp ends
      · have less := Nat.mul_le_mul_left h.cost.nanos atMost
        exact inTime.mpr (by omega)
      · rw [works.state ends, ← List.length_append, ← order ends]
        exact Nat.zero_add _

/-! ## Every drain -/

/-- What draining a batch comes to. -/
structure DrainsInOrder (b : MoveBatch) (clock : Duration) : Prop where
  /-- The loop comes to an end if content pushes finitely many events over all of it, and only
  then; -/
  ends : ∀ {σ : Type} (react : Handler σ) (c : σ),
    (∃ o, Loops react (start b c clock) o) ↔ PushesFinitely react (start b c clock)
  /-- and to one end only. -/
  unique : ∀ {σ : Type} (react : Handler σ) (c : σ) (o o' : Outcome Call (Draining σ)),
    Loops react (start b c clock) o → Loops react (start b c clock) o' → o = o'
  /-- Content is handed what is queued, then what it pushes meanwhile, each event once and in the
  order of arrival; they are counted, the queue is empty then, and the records are left alone. -/
  worksOff : ∀ {σ : Type} (react : Handler σ) (c : σ) (o : Outcome Call (Draining σ)),
    Loops react (start b c clock) o → ∃ es, WorksOff react (start b c clock) es o
  /-- The drain of a tab, whose content bounds what it pushes, is this loop. -/
  drain : ∀ {σ : Type} [Content σ] (s : Seat σ), s.tab.moves = some b → s.shared.clock = clock →
    ∃ o, Loops Content.pointer (start b s.tab.content clock) o ∧
      s.drain = (o.map (toSeat s)).lift (.call s.tab.id)
  /-- Content without a document that has a way back pushes all it has with the first event. -/
  headless : ∀ (h : Headless) (o : Outcome Call (Draining Headless)), h.attached = true →
    Loops Content.pointer (start b h clock) o →
    (o.fault = none ↔ clock.nanos + h.cost.nanos * headlessCount b h ≤ Duration.limit) ∧
      (o.fault = none → o.state.dispatched = headlessCount b h)

/-- A drain works off the queue in the order of arrival, whatever it holds and whatever content
pushes meanwhile. -/
theorem drains_in_order (b : MoveBatch) (clock : Duration) : DrainsInOrder b clock where
  ends _ _ := loops_iff
  unique _ _ _ _ := Loops.unique
  worksOff _ _ _ := Loops.worksOff
  drain _ := exists_loops_seat
  headless _ _ := headless_loops

/-- As many rounds as empty the queue are what the loop comes to. -/
theorem loops_rounds (n : Nat) (ends : (rounds react n d).fault = none)
    (empty : (rounds react n d).state.batch.queue = []) : Loops react d (rounds react n d) := by
  induction n generalizing d with
  | zero => exact .ends empty
  | succ n ih =>
    rw [rounds] at ends empty ⊢
    obtain ⟨here, later⟩ := Outcome.fault_andThen_eq_none_iff.mp ends
    rw [Outcome.state_andThen here] at empty
    cases queue : d.batch.queue with
    | nil =>
      have idle : round react d = .ok d := by rw [round, queue]
      rw [idle] at later empty ⊢
      exact ih later empty
    | cons e rest =>
      rw [Outcome.andThen_congr (g := fun _ => rounds react n (round react d).state) rfl]
      exact .goesOn (by simp [queue]) here (ih later empty)

/-- Content that answers each event of a pointer with a move of the pointer before it, down to the
first one. -/
def countdown : Handler Unit := fun e _ =>
  { content := ()
    cost := .ofNanos 1
    pushed :=
      if e.pointer.value = 0 then []
      else [.move { pointer := ⟨e.pointer.value - 1⟩, position := {} }] }

/-- Moves of the pointers 2 and 1. -/
def twoMoves : MoveBatch :=
  { queue := [.move { pointer := ⟨2⟩, position := {} }, .move { pointer := ⟨1⟩, position := {} }] }

/-- A tab with these two in its queue, whose content is about to push them once more. -/
def twice : Seat Headless :=
  { tab :=
      { id := ⟨1⟩
        settings := {}
        content := { attached := true, reentrant := twoMoves.queue }
        moves := some twoMoves }
    shared := {} }

/-- What is pushed while a pushed event is dispatched goes behind all that was pushed before.
Content without a document pushes its two events with the first of the two in the queue. -/
theorem drains_in_order_nested :
    (∃ o, Loops countdown (start twoMoves () .zero) o ∧
      PushesFinitely countdown (start twoMoves () .zero) ∧
      (∃ es, WorksOff countdown (start twoMoves () .zero) es o) ∧
      o.fault = none ∧ o.state.dispatched = 5 ∧
      (o.trace.filterMap Call.pointer?).map (·.pointer.value) = [2, 1, 1, 0, 0]) ∧
    ∃ o, Loops Content.pointer (start twoMoves twice.tab.content .zero) o ∧
      twice.drain = (o.map (toSeat twice)).lift (.call twice.tab.id) ∧
      o.fault = none ∧ o.state.dispatched = 4 := by
  have laws := drains_in_order twoMoves .zero
  constructor
  · have loops : Loops countdown (start twoMoves () .zero) _ :=
      loops_rounds 5 (by decide +kernel) (by rfl)
    exact ⟨_, loops, (laws.ends countdown ()).mp ⟨_, loops⟩, laws.worksOff countdown () _ loops,
      by decide +kernel, by decide +kernel, by decide +kernel⟩
  · obtain ⟨o, loops, same⟩ := laws.drain twice rfl rfl
    obtain ⟨inTime, count⟩ := laws.headless _ o rfl loops
    have ends := inTime.mpr (by decide +kernel)
    exact ⟨o, loops, same, ends, count ends⟩

end Draining

end TabHost
