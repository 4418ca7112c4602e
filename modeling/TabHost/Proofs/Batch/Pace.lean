import TabHost.Proofs.Batch.Burst
import TabHost.Wire.Time

/-!
# What the times of wheel events add up to

A batch of wheel events adds up times twice: the end of a dispatch and its length, to tell how
long content is busy, and the time of an event and the length of its dispatch, to tell the end of
that. The length is the difference of what the clock shows before and after, and at most two
events go to content in between. So it is at most twice what content without a document takes
(`WheelBatch.Timely`), however far the clock has come, and all these sums are far below the
longest duration as long as what comes from the wire goes into them.

Only the clock itself may overflow (`WheelBatch.paced_handle`): an outcome keeps pace if content
takes the same time as before, and if the clock is what has no room for it where a sum of
durations has no value (`Outcome.KeepsPace`).
-/

set_option linter.unusedSectionVars false

namespace TabHost

/-! ## Outcomes that keep pace -/

/-- Content takes as long as before, and if durations overflow, then because the clock has not
that much time left. -/
structure Outcome.KeepsPace {ε α : Type} (pace now : α → Duration) (s : α) (o : Outcome ε α) :
    Prop where
  cost : pace o.state = pace s
  late : o.fault = some .durationOverflow →
    Duration.limit < (now o.state).nanos + (pace o.state).nanos

namespace Outcome.KeepsPace

variable {ε δ α β : Type} {pace now : α → Duration} {s s' : α} {o : Outcome ε α}

theorem of_onTime (same : pace o.state = pace s) (onTime : o.fault ≠ some .durationOverflow) :
    o.KeepsPace pace now s :=
  ⟨same, fun late => absurd late onTime⟩

theorem ok (s : α) : (Outcome.ok s : Outcome ε α).KeepsPace pace now s :=
  .of_onTime rfl (by simp)

theorem andThen {f : α → Outcome ε α} (h : o.KeepsPace pace now s)
    (hf : o.fault = none → (f o.state).KeepsPace pace now o.state) :
    (o.andThen f).KeepsPace pace now s := by
  cases ho : o.fault with
  | some e =>
    rw [Outcome.andThen_of_fault ho]
    exact h
  | none =>
    have hf := hf ho
    refine ⟨?_, fun late => ?_⟩
    · rw [Outcome.state_andThen ho, hf.cost, h.cost]
    · rw [Outcome.fault_andThen ho] at late
      rw [Outcome.state_andThen ho]
      exact hf.late late

theorem lift (h : o.KeepsPace pace now s) (f : ε → δ) : (o.lift f).KeepsPace pace now s :=
  ⟨h.cost, h.late⟩

/-- Pace is kept as well as seen from a larger or smaller state. -/
theorem map {pace' now' : β → Duration} {t : β} {f : α → β} (h : o.KeepsPace pace now s)
    (paces : pace' (f o.state) = pace o.state) (clocks : now' (f o.state) = now o.state)
    (before : pace' t = pace s) : (o.map f).KeepsPace pace' now' t := by
  refine ⟨paces.trans (h.cost.trans before.symm), fun late => ?_⟩
  rw [Outcome.state_map, paces, clocks]
  exact h.late late

/-- Only what content took before matters. -/
theorem of_same (h : o.KeepsPace pace now s') (same : pace s' = pace s) :
    o.KeepsPace pace now s :=
  ⟨h.cost.trans same, h.late⟩

end Outcome.KeepsPace

theorem Headless.cost_after (c : Headless) (calls : List Call) :
    (Content.after c calls).cost = c.cost := by
  induction calls generalizing c with
  | nil => rfl
  | cons call rest ih =>
    rw [Content.after, ih]
    exact c.cost_content_react call

/-! ## On stage -/

namespace Stage

/-- An operation on stage keeps pace. -/
abbrev Paced (s : Stage Headless) (o : Outcome Call (Stage Headless)) : Prop :=
  o.KeepsPace (fun s => s.content.cost) Stage.clock s

variable {s : Stage Headless} {e : WheelEvent}

/-- A dispatch moves the clock on by what content takes, or the clock has not that much time. -/
theorem perform_paced (s : Stage Headless) (call : Call) (input : call.isInput = true) :
    Paced s (s.perform call (Content.react s.content call)) ∧
      ((s.perform call (Content.react s.content call)).fault = none →
        (s.perform call (Content.react s.content call)).state.clock.nanos =
          s.clock.nanos + s.content.cost.nanos) := by
  have cost := s.content.cost_react input
  unfold perform
  rw [cost]
  cases moved : s.clock.add? s.content.cost with
  | none =>
    refine ⟨⟨rfl, fun _ => ?_⟩, fun hf => by cases hf⟩
    unfold Duration.add? Duration.ofNanos? at moved
    split at moved
    · cases moved
    · next past => exact Nat.not_le.mp past
  | some clock =>
    exact ⟨.of_onTime (s.content.cost_content_react call) (by simp [Outcome.emit]),
      fun _ => (Duration.add?_eq_some_iff.mp moved).symm⟩

theorem paced_wheel (e : WheelEvent) (s : Stage Headless) : Paced s (s.wheel e) :=
  (s.perform_paced (.wheel e) rfl).1

theorem clock_wheel (hf : (s.wheel e).fault = none) :
    (s.wheel e).state.clock.nanos = s.clock.nanos + s.content.cost.nanos :=
  (s.perform_paced (.wheel e) rfl).2 hf

theorem paced_key (e : KeyEvent) (s : Stage Headless) : Paced s (s.key e) :=
  (s.perform_paced (.key e (s.keyStatus e)) rfl).1

theorem paced_drainWithin (n : Nat) (s : Stage Headless) : Paced s (drainWithin n s) := by
  induction n generalizing s with
  | zero => exact .ok s
  | succ n ih =>
    rw [drainWithin]
    split
    · exact .ok s
    · next e rest _ =>
      have first := (perform_paced { s with queue := rest } (.pointer e) rfl).1
      exact (first.andThen fun _ => ih _).of_same rfl

theorem paced_drain (s : Stage Headless) : Paced s s.drain := paced_drainWithin _ s

end Stage

/-! ## A batch that is timely -/

namespace WheelBatch

/-- The last dispatch took at most twice what content takes, and ended no later than that after
the last instant that can be read from the wire. -/
structure Timely (cost : Duration) (w : WheelBatch) : Prop where
  brief : w.lastDuration.nanos ≤ 2 * cost.nanos
  early : ∀ last, w.lastProcessed = some last →
    last.nanos ≤ Duration.wireLimit + 2 * cost.nanos

variable {cost : Duration} {w : WheelBatch} {e : WheelEvent} {s : WheelBatch × Stage Headless}

theorem timely_empty (cost : Duration) : Timely cost {} :=
  ⟨Nat.zero_le _, fun _ hl => by cases hl⟩

/-- What is held back does not matter. -/
theorem Timely.of_same {w' : WheelBatch} (ht : w.Timely cost)
    (duration : w'.lastDuration = w.lastDuration)
    (processed : w'.lastProcessed = w.lastProcessed) : w'.Timely cost := by
  refine ⟨?_, fun last hl => ?_⟩
  · rw [duration]
    exact ht.brief
  · exact ht.early last (processed.symm.trans hl)

theorem five_wireLimit : 5 * Duration.wireLimit ≤ Duration.limit := by decide

/-- Content is busy at most up to five times the longest duration on the wire. -/
theorem Timely.busyUntil_le (ht : w.Timely cost) (slow : cost.nanos ≤ Duration.wireLimit) :
    w.busyUntil ≤ 5 * Duration.wireLimit := by
  have brief := ht.brief
  unfold busyUntil
  split
  · omega
  · next last hl =>
    have early := ht.early last hl
    omega

theorem Timely.isBusy? (ht : w.Timely cost) (slow : cost.nanos ≤ Duration.wireLimit)
    (e : WheelEvent) : (w.isBusy? e).isSome = true := by
  rw [isBusy?_of_room (Nat.le_trans (ht.busyUntil_le slow) five_wireLimit)]
  rfl

/-- An operation on a batch and its stage keeps pace. -/
abbrev Paced (s : WheelBatch × Stage Headless)
    (o : Outcome Call (WheelBatch × Stage Headless)) : Prop :=
  o.KeepsPace (fun s => s.2.content.cost) (fun s => s.2.clock) s

theorem paced_dispatchPending (s : WheelBatch × Stage Headless) :
    Paced s (dispatchPending s) := by
  unfold dispatchPending
  split
  · exact .ok s
  · exact (Stage.paced_wheel _ s.2).map rfl rfl rfl

theorem paced_dispatch (e : WheelEvent) (s : WheelBatch × Stage Headless) :
    Paced s (dispatch e s) :=
  (Stage.paced_wheel e s.2).map rfl rfl rfl

theorem paced_dispatch_pending (e : WheelEvent) (s : WheelBatch × Stage Headless) :
    Paced s ((dispatchPending s).andThen (dispatch e)) :=
  (paced_dispatchPending s).andThen fun _ => paced_dispatch e _

/-- At most two events go to content between two readings of the clock. -/
theorem clock_dispatch (hf : ((dispatchPending s).andThen (dispatch e)).fault = none) :
    ((dispatchPending s).andThen (dispatch e)).state.2.clock.nanos ≤
      s.2.clock.nanos + 2 * s.2.content.cost.nanos := by
  obtain ⟨first, second⟩ := Outcome.fault_andThen_eq_none_iff.mp hf
  have same := (paced_dispatchPending s).cost
  have before : (dispatchPending s).state.2.clock.nanos ≤
      s.2.clock.nanos + s.2.content.cost.nanos := by
    unfold dispatchPending at first ⊢
    split
    · exact Nat.le_add_right ..
    · next r hp =>
      rw [hp] at first
      exact Nat.le_of_eq (Stage.clock_wheel first)
  have behind := Stage.clock_wheel (s := (dispatchPending s).state.2) (e := e) second
  rw [Outcome.state_andThen first]
  show ((dispatchPending s).state.2.wheel e).state.clock.nanos ≤ _
  rw [behind, same]
  omega

/-- Whatever is measured is at most twice what content takes, so its sum with the time of an event
has a value. -/
theorem timely_measure {before : Duration} (slow : cost.nanos ≤ Duration.wireLimit)
    (early : e.timestamp.nanos ≤ Duration.wireLimit)
    (took : s.2.clock.nanos ≤ before.nanos + 2 * cost.nanos) :
    (measure before e s).fault = none ∧ (measure before e s).state.1.Timely cost ∧
      (measure before e s).state.2 = s.2 := by
  have brief : (s.2.clock.sub before).nanos ≤ 2 * cost.nanos := by
    rw [Duration.nanos_sub]
    omega
  have room : e.timestamp.nanos + (s.2.clock.sub before).nanos ≤ Duration.limit := by
    have five := five_wireLimit
    omega
  have sum : e.timestamp.add? (s.2.clock.sub before) = some ⟨_, room⟩ :=
    Duration.add?_eq_some_iff.mpr rfl
  simp only [measure, sum]
  refine ⟨rfl, ⟨brief, fun last hl => ?_⟩, rfl⟩
  cases hl
  show e.timestamp.nanos + (s.2.clock.sub before).nanos ≤ _
  omega

/-- Whether an event is held back can always be told. -/
theorem Timely.holds? (ht : w.Timely cost) (slow : cost.nanos ≤ Duration.wireLimit)
    (e : WheelEvent) (nextIsWheel : Bool) : w.holds? e nextIsWheel ≠ none := by
  obtain ⟨busy, hb⟩ := Option.isSome_iff_exists.mp (ht.isBusy? slow e)
  unfold WheelBatch.holds?
  rw [hb]
  split <;> simp

/-- An event from the wire keeps a batch timely and keeps pace: no sum of times overflows. -/
theorem paced_handle (ht : s.1.Timely s.2.content.cost)
    (slow : s.2.content.cost.nanos ≤ Duration.wireLimit)
    (early : e.timestamp.nanos ≤ Duration.wireLimit) (nextIsWheel : Bool) :
    Paced s (handle e nextIsWheel s) ∧ ((handle e nextIsWheel s).fault = none →
      (handle e nextIsWheel s).state.1.Timely s.2.content.cost) := by
  unfold handle
  split
  · next unknown => exact absurd unknown (ht.holds? slow e nextIsWheel)
  · exact ⟨.of_onTime rfl (by simp), fun _ => ht.of_same rfl rfl⟩
  · split
    · have paced := paced_dispatch_pending e ({ s.1 with lastProcessed := some e.timestamp }, s.2)
      have clock := clock_dispatch (e := e)
        (s := ({ s.1 with lastProcessed := some e.timestamp }, s.2))
      generalize (dispatchPending ({ s.1 with lastProcessed := some e.timestamp }, s.2)).andThen
        (dispatch e) = o at paced clock ⊢
      refine ⟨(paced.andThen fun hf => ?_).of_same rfl, fun hf => ?_⟩
      · obtain ⟨ends, -, same⟩ := timely_measure slow early (clock hf)
        exact .of_onTime (by rw [same]) (by rw [ends]; simp)
      · have first := (Outcome.fault_andThen_eq_none_iff.mp hf).1
        rw [Outcome.state_andThen first]
        exact (timely_measure slow early (clock first)).2.1
    · refine ⟨(paced_dispatch_pending e _).of_same rfl, fun _ => ?_⟩
      rw [batch_dispatch_pending]
      exact ⟨ht.brief, fun _ hl => by cases hl⟩

/-- Where the clock has the time that content takes for what is held back and for the event, the
event is handled without a fault. -/
theorem fault_handle (ht : s.1.Timely s.2.content.cost)
    (slow : s.2.content.cost.nanos ≤ Duration.wireLimit)
    (early : e.timestamp.nanos ≤ Duration.wireLimit) (nextIsWheel : Bool)
    (room : s.2.clock.nanos + s.2.content.cost.nanos * (s.1.heldBack + 1) ≤ Duration.limit) :
    (handle e nextIsWheel s).fault = none := by
  have dispatched : ∀ u : WheelBatch, u.pending = s.1.pending →
      ((dispatchPending (u, s.2)).andThen (dispatch e)).fault = none :=
    fun u same => (hands_dispatch same s.2.content.takes room).fault
  unfold handle
  split
  · next unknown => exact absurd unknown (ht.holds? slow e nextIsWheel)
  · rfl
  · split
    · have first := dispatched { s.1 with lastProcessed := some e.timestamp } rfl
      have took := clock_dispatch (s := ({ s.1 with lastProcessed := some e.timestamp }, s.2)) first
      rw [Outcome.fault_andThen first]
      exact (timely_measure slow early took).1
    · exact dispatched { s.1 with lastProcessed := none } rfl

/-- So does an event that is not batched. -/
theorem paced_unbatched (ht : s.1.Timely s.2.content.cost) :
    Paced s ((dispatchPending s).andThen (dispatch e)) ∧
      (((dispatchPending s).andThen (dispatch e)).fault = none →
        ((dispatchPending s).andThen (dispatch e)).state.1.Timely s.2.content.cost) := by
  refine ⟨paced_dispatch_pending e s, fun _ => ?_⟩
  rw [batch_dispatch_pending]
  exact ht.of_same rfl rfl

end WheelBatch

end TabHost
