import Mathlib.Data.List.Chain
import TabHost.Proofs.Batch.Wheel

/-!
# Bursts of wheel events

Content that takes a fixed time for everything it is handed (`Content.Takes`) lets a batch of
wheel events tell beforehand how long it takes it to be busy: twice the time that the last dispatch
took, counted from the event that was dispatched last (`WheelBatch.busyUntil`). The event in front
of a burst is dispatched alone, and so takes content to be busy for twice its time; every later one
that is dispatched goes behind what was held back, for four times its time
(`WheelBatch.handle_late`).

So what comes of a burst (`IsBurst`) can be told by the times of its events alone
(`Burst.handed`). If all between the first and the last come before content is done, they are
handed to it as one; else the burst is cut at the first that does not, and at later ones.
-/

set_option linter.unusedSectionVars false

namespace TabHost

variable {σ : Type} [Content σ] {time : Duration}

/-! ## Content of a fixed pace -/

/-- Content takes the same time for every event, whatever it was called for before. -/
def Content.Takes (time : Duration) (c : σ) : Prop :=
  ∀ calls call, call.isInput = true → (Content.react (Content.after c calls) call).cost = time

theorem Content.Takes.react {c : σ} (h : Takes time c) (call : Call) :
    Takes time (react c call).content := fun calls => h (call :: calls)

/-- Content without a document takes its time for every event, -/
theorem Headless.cost_react (c : Headless) {call : Call} (input : call.isInput = true) :
    (Content.react c call).cost = c.cost := by
  cases call with
  | pointer e =>
    show (Headless.pointer c).cost = c.cost
    unfold Headless.pointer
    split <;> rfl
  | wheel e => rfl
  | key e status => rfl
  | notice n => cases input

/-- and keeps to it. -/
theorem Headless.cost_content_react (c : Headless) (call : Call) :
    (Content.react c call).content.cost = c.cost := by
  cases call with
  | pointer e =>
    show (Headless.pointer c).content.cost = c.cost
    unfold Headless.pointer
    split <;> rfl
  | wheel e => rfl
  | key e status => rfl
  | notice n => cases n <;> rfl

theorem Headless.takes (c : Headless) : Content.Takes c.cost c := by
  intro calls call input
  induction calls generalizing c with
  | nil => exact c.cost_react input
  | cons first rest ih =>
    rw [Content.after, ← c.cost_content_react first]
    exact ih _

namespace Stage

variable {s s' s'' : Stage σ} {n m : Nat}

/-- A dispatch to content of a fixed pace, as long as the clock has room for it. -/
theorem perform_of_takes (call : Call) (takes : Content.Takes time s.content)
    (input : call.isInput = true) (room : s.clock.nanos + time.nanos ≤ Duration.limit) :
    s.perform call (Content.react s.content call) = .emit call
      { content := (Content.react s.content call).content
        clock := ⟨s.clock.nanos + time.nanos, room⟩
        queue := s.queue ++ (Content.react s.content call).pushed } := by
  have cost : (Content.react s.content call).cost = time := takes [] call input
  have clock : s.clock.add? (Content.react s.content call).cost =
      some ⟨s.clock.nanos + time.nanos, room⟩ := by
    rw [cost]
    exact Duration.add?_eq_some_iff.mpr rfl
  rw [perform, clock]

/-- What becomes of a stage by so many dispatches, none of which is that of a queued event. -/
structure Spends (time : Duration) (n : Nat) (s s' : Stage σ) : Prop where
  takes : Content.Takes time s'.content
  clock : s'.clock.nanos = s.clock.nanos + time.nanos * n
  outstanding : s'.outstanding ≤ s.outstanding

theorem Spends.refl (takes : Content.Takes time s.content) : Spends time 0 s s :=
  ⟨takes, rfl, Nat.le_refl _⟩

theorem Spends.trans (h : Spends time n s s') (h' : Spends time m s' s'') :
    Spends time (n + m) s s'' := by
  refine ⟨h'.takes, ?_, Nat.le_trans h'.outstanding h.outstanding⟩
  rw [h'.clock, h.clock, Nat.mul_add, Nat.add_assoc]

theorem wheel_of_takes (takes : Content.Takes time s.content) (e : WheelEvent)
    (room : s.clock.nanos + time.nanos ≤ Duration.limit) :
    (s.wheel e).fault = none ∧ Spends time 1 s (s.wheel e).state := by
  have performed : s.wheel e = _ := perform_of_takes (.wheel e) takes rfl room
  have pushes := Content.backlog_wheel e s.content
  rw [performed]
  refine ⟨rfl, takes.react (.wheel e), ?_, ?_⟩
  · exact (congrArg _ (Nat.mul_one _)).symm
  · simp only [outstanding, Outcome.emit, List.length_append, Content.react]
    omega

/-- Draining the queue takes no more than what is outstanding allows for. -/
theorem drainWithin_of_takes (n : Nat) (takes : Content.Takes time s.content)
    (room : s.clock.nanos + time.nanos * s.outstanding ≤ Duration.limit) :
    (drainWithin n s).fault = none ∧ Content.Takes time (drainWithin n s).state.content ∧
      (drainWithin n s).state.clock.nanos + time.nanos * (drainWithin n s).state.outstanding ≤
        s.clock.nanos + time.nanos * s.outstanding := by
  induction n generalizing s with
  | zero => exact ⟨rfl, takes, Nat.le_refl _⟩
  | succ n ih =>
    rw [drainWithin]
    cases hq : s.queue with
    | nil => exact ⟨rfl, takes, Nat.le_refl _⟩
    | cons e rest =>
      have less := outstanding_pointer hq
      have some : time.nanos * 1 ≤ time.nanos * s.outstanding := by
        refine Nat.mul_le_mul_left _ ?_
        rw [outstanding, hq, List.length_cons]
        omega
      have performed : pointer e { s with queue := rest } = _ :=
        perform_of_takes (s := { s with queue := rest }) (.pointer e) takes rfl
          (by dsimp only; omega)
      have fault : (pointer e { s with queue := rest }).fault = none := by rw [performed]; rfl
      have takes' : Content.Takes time (pointer e { s with queue := rest }).state.content := by
        rw [performed]
        exact takes.react (.pointer e)
      have clock : (pointer e { s with queue := rest }).state.clock.nanos =
          s.clock.nanos + time.nanos := by rw [performed]; rfl
      have spent := Nat.mul_le_mul_left time.nanos (less fault)
      rw [Nat.mul_succ] at spent
      obtain ⟨fault', takes'', spends⟩ := ih takes' (by omega)
      rw [Outcome.fault_andThen fault, Outcome.state_andThen fault]
      exact ⟨fault', takes'', by omega⟩

theorem drain_of_takes (takes : Content.Takes time s.content)
    (room : s.clock.nanos + time.nanos * s.outstanding ≤ Duration.limit) :
    s.drain.fault = none ∧ Content.Takes time s.drain.state.content ∧
      s.drain.state.clock.nanos + time.nanos * s.drain.state.outstanding ≤
        s.clock.nanos + time.nanos * s.outstanding :=
  drainWithin_of_takes _ takes room

end Stage

/-! ## A batch and its estimate -/

namespace WheelBatch

variable {w : WheelBatch} {s : Stage σ} {e : WheelEvent}

/-- How many dispatches go before the next one. -/
def heldBack (w : WheelBatch) : Nat := w.pending.toList.length

/-- The instant up to which content is taken to be busy, in nanoseconds. -/
def busyUntil (w : WheelBatch) : Nat :=
  match w.lastProcessed with
  | none => 0
  | some last => last.nanos + w.lastDuration.nanos

theorem isBusy?_of_room (room : w.busyUntil ≤ Duration.limit) (e : WheelEvent) :
    w.isBusy? e = some (decide (e.timestamp.nanos < w.busyUntil)) := by
  unfold isBusy? busyUntil at *
  cases hl : w.lastProcessed with
  | none => simp
  | some last =>
    rw [hl] at room
    have ending : last.add? w.lastDuration = some ⟨last.nanos + w.lastDuration.nanos, room⟩ :=
      Duration.add?_eq_some_iff.mpr rfl
    simp only [ending, Option.map_some]
    rfl

/-- A batch hands content some calls, by so many dispatches. -/
structure Hands (time : Duration) (n : Nat) (calls : List Call) (s : Stage σ)
    (o : Outcome Call (WheelBatch × Stage σ)) : Prop where
  fault : o.fault = none
  trace : o.trace = calls
  spends : Stage.Spends time n s o.state.2

theorem spends_dispatchPending (takes : Content.Takes time s.content)
    (room : s.clock.nanos + time.nanos * w.heldBack ≤ Duration.limit) :
    (dispatchPending (w, s)).fault = none ∧
      Stage.Spends time w.heldBack s (dispatchPending (w, s)).state.2 := by
  unfold dispatchPending heldBack at *
  cases hp : w.pending with
  | none => exact ⟨rfl, .refl takes⟩
  | some r =>
    rw [hp] at room
    exact Stage.wheel_of_takes takes r.event (by simpa using room)

/-- An event is dispatched behind what was held back. -/
theorem hands_dispatch {u : WheelBatch} (same : u.pending = w.pending)
    (takes : Content.Takes time s.content)
    (room : s.clock.nanos + time.nanos * (w.heldBack + 1) ≤ Duration.limit) :
    Hands time (w.heldBack + 1) (w.pendingCalls ++ [.wheel e]) s
      ((dispatchPending (u, s)).andThen (dispatch e)) := by
  have count : u.heldBack = w.heldBack := by rw [heldBack, same, heldBack]
  rw [Nat.mul_succ] at room
  obtain ⟨first, spends⟩ := spends_dispatchPending (w := u) takes (by rw [count]; omega)
  obtain ⟨last, spends'⟩ := Stage.wheel_of_takes spends.takes e (by rw [spends.clock, count]; omega)
  have fault : ((dispatchPending (u, s)).andThen (dispatch e)).fault = none := by
    rw [Outcome.fault_andThen first]
    exact last
  refine ⟨fault, answered_dispatch same fault, ?_⟩
  rw [Outcome.state_andThen first, ← count]
  exact spends.trans spends'

/-- While content is taken to be busy, an event that another one follows is held back. -/
theorem handle_early (phase : e.phase = .delta) (fits : w.isCompatible e = true)
    (room : w.busyUntil ≤ Duration.limit) (early : e.timestamp.nanos < w.busyUntil)
    (takes : Content.Takes time s.content) :
    Hands time 0 [] s (handle e true (w, s)) ∧ (handle e true (w, s)).state.1 = w.hold e := by
  have holds : w.holds? e true = some true := by
    simp [holds?, isFollowed, phase, isBusy?_of_room room, early, fits]
  simp only [handle, holds]
  exact ⟨⟨rfl, rfl, .refl takes⟩, rfl⟩

/-- Later it is dispatched, and content is taken to be busy for twice as long as that took. -/
theorem handle_late (phase : e.phase = .delta) (busy : w.busyUntil ≤ Duration.limit)
    (late : w.busyUntil ≤ e.timestamp.nanos) (takes : Content.Takes time s.content)
    (room : s.clock.nanos + time.nanos * (w.heldBack + 1) ≤ Duration.limit)
    (room' : e.timestamp.nanos + time.nanos * (w.heldBack + 1) ≤ Duration.limit) :
    Hands time (w.heldBack + 1) (w.pendingCalls ++ [.wheel e]) s (handle e true (w, s)) ∧
      (handle e true (w, s)).state.1.pending = none ∧
      (handle e true (w, s)).state.1.busyUntil =
        e.timestamp.nanos + 2 * (time.nanos * (w.heldBack + 1)) := by
  have passes : w.holds? e true = some false := by
    simp [holds?, isFollowed, phase, isBusy?_of_room busy, Nat.not_lt.mpr late]
  have followed : isFollowed e true = true := by simp [isFollowed, phase]
  have hands := hands_dispatch (e := e) (w := w) (s := s)
    (u := { w with lastProcessed := some e.timestamp }) rfl takes room
  have batch := batch_dispatch_pending e ({ w with lastProcessed := some e.timestamp }, s)
  simp only [handle, passes, followed, if_true]
  generalize ((dispatchPending ({ w with lastProcessed := some e.timestamp }, s)).andThen
    (dispatch e)) = o at hands batch
  have took : (o.state.2.clock.sub s.clock).nanos = time.nanos * (w.heldBack + 1) := by
    rw [Duration.nanos_sub, hands.spends.clock, Nat.add_sub_cancel_left]
  have ending : e.timestamp.add? (o.state.2.clock.sub s.clock) =
      some ⟨e.timestamp.nanos + time.nanos * (w.heldBack + 1), room'⟩ := by
    rw [Duration.add?_eq_some_iff, took]
  have measured : measure s.clock e o.state = .ok ({ o.state.1 with
      lastDuration := o.state.2.clock.sub s.clock
      lastProcessed := some ⟨e.timestamp.nanos + time.nanos * (w.heldBack + 1), room'⟩ },
      o.state.2) := by
    simp only [measure, ending]
  have whole : o.andThen (measure s.clock e) =
      { measure s.clock e o.state with trace := o.trace } := by
    simp [Outcome.andThen, hands.fault, trace_measure]
  rw [whole, measured]
  refine ⟨⟨rfl, hands.trace, hands.spends⟩, ?_, ?_⟩
  · show o.state.1.pending = none
    rw [batch]
  · show e.timestamp.nanos + time.nanos * (w.heldBack + 1) + (o.state.2.clock.sub s.clock).nanos = _
    rw [took]
    omega

/-- The last event of a burst is dispatched, whenever it comes. -/
theorem handle_last (takes : Content.Takes time s.content)
    (room : s.clock.nanos + time.nanos * (w.heldBack + 1) ≤ Duration.limit) :
    Hands time (w.heldBack + 1) (w.pendingCalls ++ [.wheel e]) s (handle e false (w, s)) := by
  have passes : w.holds? e false = some false := by simp [holds?, isFollowed]
  have unfollowed : isFollowed e false = false := by simp [isFollowed]
  simp only [handle, passes, unfollowed, Bool.false_eq_true, if_false]
  exact hands_dispatch rfl takes room

end WheelBatch

/-! ## Bursts -/

/-- Wheel events that may be added up, each of which comes less than a time after the one
before. -/
structure IsBurst (time : Duration) (es : List WheelEvent) : Prop where
  phase : ∀ e ∈ es, e.phase = .delta
  alike : ∀ a ∈ es, ∀ b ∈ es, a.compatibility = b.compatibility
  close : es.IsChain fun a b =>
    a.timestamp ≤ b.timestamp ∧ b.timestamp.nanos < a.timestamp.nanos + time.nanos

namespace Burst

variable {time busy : Nat} {held middle : List WheelEvent} {e last : WheelEvent}

/-- Some events as one: the last of them, with the deltas of all. -/
def merged : List WheelEvent → Option WheelEvent
  | [] => none
  | e :: rest => some (rest.foldl WheelEvent.add e)

/-- What content is handed of the rest of a burst, while some events are held back and content is
taken to be busy up to an instant. The rest is cut at the first event that does not come before;
content is handed those before as one, and that event behind them, and is taken to be busy for
four times its time from then on. -/
def handed (time busy : Nat) (held : List WheelEvent) :
    List WheelEvent → WheelEvent → List WheelEvent
  | [], last => (merged held).toList ++ [last]
  | e :: rest, last =>
    if e.timestamp.nanos < busy then handed time busy (held ++ [e]) rest last
    else (merged held).toList ++ e :: handed time (e.timestamp.nanos + 4 * time) [] rest last

/-- What content is handed of a burst: the first event, and then what comes of the rest while
content is taken to be busy for twice its time. -/
def dispatched (d : Duration) (first : WheelEvent) (middle : List WheelEvent) (last : WheelEvent) :
    List WheelEvent :=
  first :: handed d.nanos (first.timestamp.nanos + 2 * d.nanos) [] middle last

theorem merged_concat (held : List WheelEvent) (e : WheelEvent) :
    merged (held ++ [e]) = some (match merged held with
      | none => e
      | some total => total.add e) := by
  cases held with
  | nil => rfl
  | cons first rest => simp [merged, List.foldl_append]

theorem length_merged (h : held ≠ []) : (merged held).toList.length = 1 := by
  cases held with
  | nil => exact absurd rfl h
  | cons first rest => rfl

theorem compatibility_merged {k : WheelCompatibility} {total : WheelEvent}
    (h : ∀ e ∈ held, e.compatibility = k) (hm : merged held = some total) :
    total.compatibility = k := by
  induction held using List.reverseRecOn generalizing total with
  | nil => cases hm
  | append_singleton front e ih =>
    rw [merged_concat] at hm
    have here := h e (by simp)
    cases hf : merged front with
    | none =>
      rw [hf] at hm
      cases hm
      exact here
    | some total' =>
      rw [hf] at hm
      cases hm
      exact here

/-- If all come before content is done, it is handed them as one. -/
theorem handed_of_early (early : ∀ e ∈ middle, e.timestamp.nanos < busy) :
    handed time busy held middle last = (merged (held ++ middle)).toList ++ [last] := by
  induction middle generalizing held with
  | nil => rw [handed, List.append_nil]
  | cons e rest ih =>
    rw [handed, if_pos (early e List.mem_cons_self),
      ih fun e' he => early e' (List.mem_cons_of_mem _ he), List.append_assoc]
    rfl

theorem length_handed_pos (time busy : Nat) (held middle : List WheelEvent) (last : WheelEvent) :
    0 < (handed time busy held middle last).length := by
  induction middle generalizing busy held with
  | nil => simp [handed]
  | cons e rest ih =>
    rw [handed]
    split
    · exact ih busy (held ++ [e])
    · rw [List.length_append, List.length_cons]
      omega

/-- If one does not, content is handed what was held back, that one and more. -/
theorem length_handed_of_late (soon : held = [] → ∀ e ∈ middle.head?, e.timestamp.nanos < busy)
    (late : ∃ e ∈ middle, busy ≤ e.timestamp.nanos) :
    2 < (handed time busy held middle last).length := by
  induction middle generalizing held with
  | nil =>
    obtain ⟨e, he, -⟩ := late
    cases he
  | cons e rest ih =>
    rw [handed]
    split
    · next early =>
      refine ih (by simp) ?_
      obtain ⟨e', he', hl⟩ := late
      rcases List.mem_cons.mp he' with rfl | he'
      · exact absurd early (Nat.not_lt.mpr hl)
      · exact ⟨e', he', hl⟩
    · next early =>
      have one := length_merged fun none => early (soon none e rfl)
      have more := length_handed_pos time (e.timestamp.nanos + 4 * time) [] rest last
      rw [List.length_append, one, List.length_cons]
      omega

variable {d : Duration} {first : WheelEvent}

/-- The event behind the first comes before content is done with that. -/
theorem soon (burst : IsBurst d (first :: middle ++ [last])) :
    ∀ e ∈ middle.head?, e.timestamp.nanos < first.timestamp.nanos + 2 * d.nanos := by
  intro e he
  have next : e ∈ (middle ++ [last]).head? := by
    cases middle with
    | nil => cases he
    | cons => exact he
  have near := ((List.isChain_cons.mp burst.close).1 e next).2
  omega

theorem dispatched_of_early
    (early : ∀ e ∈ middle, e.timestamp.nanos < first.timestamp.nanos + 2 * d.nanos) :
    dispatched d first middle last = first :: (merged middle).toList ++ [last] := by
  rw [dispatched, handed_of_early early]
  rfl

theorem length_dispatched_of_late (burst : IsBurst d (first :: middle ++ [last]))
    (late : ∃ e ∈ middle, first.timestamp.nanos + 2 * d.nanos ≤ e.timestamp.nanos) :
    3 < (dispatched d first middle last).length :=
  Nat.succ_lt_succ (length_handed_of_late (fun _ => soon burst) late)

end Burst

end TabHost
