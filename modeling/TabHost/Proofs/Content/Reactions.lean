import TabHost.Batch.Wheel
import TabHost.Proofs.Content.WorkList

/-!
# What content makes of its calls

Content is a state that calls move on, so its calls alone decide what became of it
(`Content.after`) and which pointer events it pushed meanwhile (`Content.pushed`).

A drained queue is a work list in the order of arrival: content is handed what was
queued, and behind it what it pushes meanwhile, and nothing is left
(`Stage.trace_drain`). A fault only cuts the calls short (`Stage.prefix_drain`). Wheel and
key events leave the queue as it is, with what content pushed at its end
(`Stage.Handles`).
-/

set_option linter.unusedSectionVars false

namespace TabHost

variable {σ : Type} [Content σ]

namespace Call

/-- Whether content is called to handle an event, and not just told of a change. -/
def isInput : Call → Bool
  | .notice _ => false
  | _ => true

end Call

/-! ## Calls decide what becomes of content -/

namespace Content

/-- What content makes of a call. -/
def react (c : σ) : Call → Reaction σ
  | .pointer e => Content.pointer e c
  | .wheel e => Content.wheel e c
  | .key e _ => Content.key e c
  | .notice n => { content := Content.notify n c, cost := .zero, pushed := [] }

/-- Content after some calls. -/
def after (c : σ) : List Call → σ
  | [] => c
  | call :: rest => after (react c call).content rest

/-- The pointer events that content pushes during some calls. -/
def pushed (c : σ) : List Call → List PointerEvent
  | [] => []
  | call :: rest => (react c call).pushed ++ pushed (react c call).content rest

theorem after_append (c : σ) (as bs : List Call) :
    after c (as ++ bs) = after (after c as) bs := by
  induction as generalizing c with
  | nil => rfl
  | cons a as ih => exact ih _

theorem pushed_append (c : σ) (as bs : List Call) :
    pushed c (as ++ bs) = pushed c as ++ pushed (after c as) bs := by
  induction as generalizing c with
  | nil => rfl
  | cons a as ih =>
    simp only [List.cons_append, pushed, after, ih, List.append_assoc]

end Content

/-! ## On stage -/

namespace Stage

/-- The call and the reaction of content, on a stage that has time for it or not. -/
theorem perform_cases (call : Call) (r : Reaction σ) (s : Stage σ) :
    ((s.perform call r).trace = [call] ∧ (s.perform call r).fault = some .durationOverflow) ∨
      ∃ clock, s.perform call r =
        .emit call { content := r.content, clock := clock, queue := s.queue ++ r.pushed } := by
  unfold perform
  cases s.clock.add? r.cost with
  | none => exact Or.inl ⟨rfl, rfl⟩
  | some clock => exact Or.inr ⟨clock, rfl⟩

@[simp] theorem trace_perform (call : Call) (r : Reaction σ) (s : Stage σ) :
    (s.perform call r).trace = [call] := by
  rcases s.perform_cases call r with ⟨h, -⟩ | ⟨clock, h⟩
  · exact h
  · rw [h]
    rfl

/-- An operation that hands content events of its own and leaves the queue alone. -/
structure Handles (s : Stage σ) (o : Outcome Call (Stage σ)) : Prop where
  content : o.fault = none → o.state.content = Content.after s.content o.trace
  queue : o.fault = none → o.state.queue = s.queue ++ Content.pushed s.content o.trace

namespace Handles

theorem andThen {s : Stage σ} {o : Outcome Call (Stage σ)}
    {f : Stage σ → Outcome Call (Stage σ)} (h : Handles s o)
    (hf : o.fault = none → Handles o.state (f o.state)) : Handles s (o.andThen f) := by
  cases ho : o.fault with
  | some e =>
    rw [Outcome.andThen_of_fault ho]
    exact h
  | none =>
    have hf := hf ho
    constructor
    · intro hn
      rw [Outcome.fault_andThen ho] at hn
      rw [Outcome.state_andThen ho, Outcome.trace_andThen ho, hf.content hn, h.content ho,
        Content.after_append]
    · intro hn
      rw [Outcome.fault_andThen ho] at hn
      rw [Outcome.state_andThen ho, Outcome.trace_andThen ho, hf.queue hn, h.queue ho,
        h.content ho, Content.pushed_append, List.append_assoc]

end Handles

theorem handles_perform (call : Call) (s : Stage σ) :
    Handles s (s.perform call (Content.react s.content call)) := by
  rcases s.perform_cases call (Content.react s.content call) with ⟨-, h⟩ | ⟨clock, h⟩
  · constructor <;> intro hn <;> rw [h] at hn <;> cases hn
  · rw [h]
    exact ⟨fun _ => rfl, fun _ => by
      simp [Outcome.emit, Content.pushed]⟩

theorem handles_wheel (e : WheelEvent) (s : Stage σ) : Handles s (s.wheel e) :=
  handles_perform (.wheel e) s

theorem handles_key (e : KeyEvent) (s : Stage σ) : Handles s (s.key e) :=
  handles_perform (.key e (s.keyStatus e)) s

/-! ## Draining the queue -/

theorem after_pointers (c : σ) (es : List PointerEvent) :
    Content.after c (es.map Call.pointer) = Handler.after Content.pointer c es := by
  induction es generalizing c with
  | nil => rfl
  | cons e es ih => exact ih _

theorem pushed_pointers (c : σ) (es : List PointerEvent) :
    Content.pushed c (es.map Call.pointer) = Handler.pushed Content.pointer c es := by
  induction es generalizing c with
  | nil => rfl
  | cons e es ih => exact congrArg _ (ih _)

/-- The drain as a loop that works off the queue. -/
theorem exists_worksOff_drain (s : Stage σ) : ∃ es o,
    Draining.WorksOff Content.pointer (.start { queue := s.queue } s.content s.clock) es o ∧
      o.map Draining.stage = s.drain := by
  obtain ⟨o, loops, same⟩ :=
    Draining.exists_loops_drain (.start { queue := s.queue } s.content s.clock)
  obtain ⟨es, works⟩ := loops.worksOff
  exact ⟨es, o, works, same⟩

/-- Content is handed what is queued and, behind it, what it pushes meanwhile, as far as
there is no fault. -/
theorem prefix_drain (s : Stage σ) :
    s.drain.trace <+: (s.queue ++ Content.pushed s.content s.drain.trace).map Call.pointer := by
  obtain ⟨es, o, works, same⟩ := s.exists_worksOff_drain
  rw [← same, Outcome.trace_map, works.trace, pushed_pointers]
  exact works.begins.map Call.pointer

/-- Without a fault content is handed all of it, -/
theorem trace_drain (s : Stage σ) (hf : s.drain.fault = none) :
    s.drain.trace = (s.queue ++ Content.pushed s.content s.drain.trace).map Call.pointer := by
  obtain ⟨es, o, works, same⟩ := s.exists_worksOff_drain
  rw [← same] at hf
  rw [← same, Outcome.trace_map, works.trace, pushed_pointers]
  exact congrArg _ (works.order hf)

/-- and it is what its calls made of it. -/
theorem content_drain (s : Stage σ) (hf : s.drain.fault = none) :
    s.drain.state.content = Content.after s.content s.drain.trace := by
  obtain ⟨es, o, works, same⟩ := s.exists_worksOff_drain
  rw [← same] at hf
  rw [← same, Outcome.trace_map, works.trace, after_pointers, Outcome.state_map, works.state hf]
  rfl

theorem isInput_of_mem_drain {s : Stage σ} {c : Call} (h : c ∈ s.drain.trace) :
    c.isInput = true := by
  obtain ⟨e, -, rfl⟩ := List.mem_map.mp (s.prefix_drain.subset h)
  rfl

end Stage

/-! ## Wheel events on stage -/

namespace WheelBatch

/-- Whatever a batch of wheel events does, content is handed wheel events only, and the
queue is left alone. -/
structure Handles (s : WheelBatch × Stage σ) (o : Outcome Call (WheelBatch × Stage σ)) :
    Prop where
  stage : Stage.Handles s.2 (o.map Prod.snd)
  wheel : ∀ c ∈ o.trace, ∃ e, c = .wheel e

namespace Handles

variable {s : WheelBatch × Stage σ} {o : Outcome Call (WheelBatch × Stage σ)}

theorem of_silent (ht : o.trace = []) (hs : o.fault = none → o.state.2 = s.2) : Handles s o := by
  refine ⟨⟨fun hn => ?_, fun hn => ?_⟩, fun c hc => by simp [ht] at hc⟩
  · simp only [Outcome.state_map, Outcome.trace_map, ht, hs hn]
    rfl
  · simp only [Outcome.state_map, Outcome.trace_map, ht, hs hn, Content.pushed, List.append_nil]

theorem andThen {f : WheelBatch × Stage σ → Outcome Call (WheelBatch × Stage σ)}
    (h : Handles s o) (hf : o.fault = none → Handles o.state (f o.state)) :
    Handles s (o.andThen f) := by
  cases ho : o.fault with
  | some e =>
    rw [Outcome.andThen_of_fault ho]
    exact h
  | none =>
    have hf := hf ho
    refine ⟨?_, fun c hc => ?_⟩
    · have := h.stage.andThen (f := fun _ => (f o.state).map Prod.snd) fun _ => hf.stage
      have heq : (o.map Prod.snd).andThen (fun _ => (f o.state).map Prod.snd) =
          (o.andThen f).map Prod.snd := by
        simp [Outcome.andThen, Outcome.map, ho]
      rw [← heq]
      exact this
    · rw [Outcome.trace_andThen ho] at hc
      rcases List.mem_append.mp hc with hc | hc
      · exact h.wheel c hc
      · exact hf.wheel c hc

end Handles

theorem handles_wheel (e : WheelEvent) (w : WheelBatch) (s : WheelBatch × Stage σ) :
    Handles s ((s.2.wheel e).map fun stage => (w, stage)) := by
  refine ⟨?_, fun c hc => ?_⟩
  · show Stage.Handles s.2 (s.2.wheel e)
    exact Stage.handles_wheel e s.2
  · simp only [Outcome.trace_map, Stage.wheel, Stage.trace_perform, List.mem_singleton] at hc
    exact ⟨e, hc⟩

theorem handles_dispatchPending (s : WheelBatch × Stage σ) : Handles s (dispatchPending s) := by
  unfold dispatchPending
  split
  · exact .of_silent rfl fun _ => rfl
  · exact handles_wheel _ _ s

theorem handles_dispatch (e : WheelEvent) (s : WheelBatch × Stage σ) : Handles s (dispatch e s) :=
  handles_wheel e s.1 s

theorem handles_measure (before : Duration) (e : WheelEvent) (s : WheelBatch × Stage σ) :
    Handles s (measure before e s) := by
  unfold measure
  cases h : e.timestamp.add? (s.2.clock.sub before) with
  | none => exact .of_silent (by simp only [h]; rfl) fun _ => by simp only [h]; rfl
  | some last => exact .of_silent (by simp only [h]; rfl) fun _ => by simp only [h]; rfl

theorem handles_handle (e : WheelEvent) (nextIsWheel : Bool) (s : WheelBatch × Stage σ) :
    Handles s (handle e nextIsWheel s) := by
  have pending : ∀ w, Handles s (dispatchPending (w, s.2)) := fun w =>
    ⟨(handles_dispatchPending (w, s.2)).stage, (handles_dispatchPending (w, s.2)).wheel⟩
  unfold handle
  split
  · exact .of_silent rfl fun _ => rfl
  · exact .of_silent rfl fun _ => rfl
  · split
    · exact ((pending _).andThen fun _ => handles_dispatch e _).andThen
        fun _ => handles_measure _ e _
    · exact (pending _).andThen fun _ => handles_dispatch e _

end WheelBatch

end TabHost
