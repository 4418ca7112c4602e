import TabHost.Batch.Moves

/-!
# A queue that grows while it is worked off

A drain is a loop: as long as there is an event in the queue, the one in front is taken out and
handed to content, which may push further events at the end of the queue meanwhile
(`Draining.round`, `Draining.Loops`). Content is any function here (`Handler`), so the loop may
go on for ever. It comes to an end just where content pushes finitely many events over all of it
(`Draining.loops_iff`): each round takes one event out, so the events in the queue and those that
are still to be pushed get fewer.

The loop works off the queue in the order of arrival, events that are pushed meanwhile included
(`Draining.WorksOff`). With content that bounds what it pushes, `Stage.drain` is what the loop
comes to (`Draining.exists_loops_drain`).
-/

namespace TabHost

/-! ## Content of any kind -/

namespace Call

/-- The pointer event that content is handed. -/
def pointer? : Call → Option PointerEvent
  | .pointer e => some e
  | _ => none

@[simp] theorem filterMap_pointer?_map (es : List PointerEvent) :
    (es.map pointer).filterMap pointer? = es := by
  simp [List.filterMap_map, Function.comp_def, pointer?]

end Call

/-- How content takes a pointer event, with no bound on what it pushes. -/
abbrev Handler (σ : Type) := PointerEvent → σ → Reaction σ

namespace Handler

variable {σ : Type} (react : Handler σ)

/-- Content after it was handed some events. -/
def after (c : σ) : List PointerEvent → σ
  | [] => c
  | e :: rest => after (react e c).content rest

/-- What content pushes while it is handed some events, in the order in which it does. -/
def pushed (c : σ) : List PointerEvent → List PointerEvent
  | [] => []
  | e :: rest => (react e c).pushed ++ pushed (react e c).content rest

/-- How many nanoseconds it takes content to handle some events. -/
def time (c : σ) : List PointerEvent → Nat
  | [] => 0
  | e :: rest => (react e c).cost.nanos + time (react e c).content rest

end Handler

/-! ## The loop -/

/-- A drain at work: the batch, the content that it is drained into and the clock, and how many
events were dispatched so far. -/
structure Draining (σ : Type) where
  dispatched : Nat := 0
  batch : MoveBatch
  content : σ
  clock : Duration

namespace Draining

variable {σ : Type} {react : Handler σ} {d : Draining σ} {o o' : Outcome Call (Draining σ)}
  {e : PointerEvent} {es rest : List PointerEvent}

/-- The content with the clock and the queue. -/
def stage (d : Draining σ) : Stage σ :=
  { content := d.content, clock := d.clock, queue := d.batch.queue }

/-- The drain after its content was on stage for one event more. -/
def next (d : Draining σ) (s : Stage σ) : Draining σ :=
  { dispatched := d.dispatched + 1
    batch := { d.batch with queue := s.queue }
    content := s.content
    clock := s.clock }

/-- A round: the event in front, if there is one, is taken out and handed to content. -/
def round (react : Handler σ) (d : Draining σ) : Outcome Call (Draining σ) :=
  match d.batch.queue with
  | [] => .ok d
  | e :: rest =>
    (({ d.stage with queue := rest } : Stage σ).perform (.pointer e) (react e d.content)).map d.next

/-- What the loop comes to, in however many rounds. -/
inductive Loops (react : Handler σ) : Draining σ → Outcome Call (Draining σ) → Prop
  | ends {d : Draining σ} (empty : d.batch.queue = []) : Loops react d (.ok d)
  | breaks {d : Draining σ} (fault : (round react d).fault ≠ none) :
      Loops react d (round react d)
  | goesOn {d : Draining σ} {o : Outcome Call (Draining σ)} (more : d.batch.queue ≠ [])
      (fault : (round react d).fault = none) (rest : Loops react (round react d).state o) :
      Loops react d ((round react d).andThen fun _ => o)

/-- The first so many rounds. -/
def rounds (react : Handler σ) : Nat → Draining σ → Outcome Call (Draining σ)
  | 0, d => .ok d
  | n + 1, d => (round react d).andThen (rounds react n)

/-- A drain before its first round. -/
def start (b : MoveBatch) (c : σ) (clock : Duration) : Draining σ :=
  { batch := b, content := c, clock := clock }

/-- What content pushes in the first so many rounds. -/
def pushedIn (react : Handler σ) (n : Nat) (d : Draining σ) : List PointerEvent :=
  react.pushed d.content ((rounds react n d).trace.filterMap Call.pointer?)

/-- Over the whole drain, however long it goes on, content pushes no more than so many events. -/
def PushesFinitely (react : Handler σ) (d : Draining σ) : Prop :=
  ∃ k, ∀ n, (pushedIn react n d).length ≤ k

/-- The drain after content handled the event in front. -/
def advanced (react : Handler σ) (e : PointerEvent) (rest : List PointerEvent) (clock : Duration)
    (d : Draining σ) : Draining σ :=
  d.next
    { content := (react e d.content).content
      clock := clock
      queue := rest ++ (react e d.content).pushed }

@[simp] theorem stage_next (d : Draining σ) (s : Stage σ) : (d.next s).stage = s := rfl

/-- A round with an event in the queue, where the clock has time for it or not. -/
theorem round_cases (react : Handler σ) (queue : d.batch.queue = e :: rest) :
    ((round react d).trace = [.pointer e] ∧ (round react d).fault = some .durationOverflow ∧
        (round react d).state.batch.pending = d.batch.pending ∧
        Duration.limit < d.clock.nanos + (react e d.content).cost.nanos) ∨
      ∃ clock : Duration, d.clock.nanos + (react e d.content).cost.nanos = clock.nanos ∧
        round react d = .emit (.pointer e) (d.advanced react e rest clock) := by
  rw [round, queue]
  dsimp only [Stage.perform]
  cases time : d.stage.clock.add? (react e d.content).cost with
  | none =>
    refine Or.inl ⟨rfl, rfl, rfl, Nat.lt_of_not_le fun room => ?_⟩
    have fits : d.clock.add? (react e d.content).cost = some ⟨_, room⟩ :=
      Duration.add?_eq_some_iff.mpr rfl
    cases time.symm.trans fits
  | some clock => exact Or.inr ⟨clock, Duration.add?_eq_some_iff.mp time, rfl⟩

theorem exists_of_fault (fault : (round react d).fault ≠ none) :
    ∃ e rest, d.batch.queue = e :: rest := by
  refine List.exists_cons_of_ne_nil fun empty => fault ?_
  rw [round, empty]
  rfl

theorem exists_advanced (more : d.batch.queue ≠ []) (fault : (round react d).fault = none) :
    ∃ e rest, d.batch.queue = e :: rest ∧ ∃ clock : Duration,
      d.clock.nanos + (react e d.content).cost.nanos = clock.nanos ∧
        round react d = .emit (.pointer e) (d.advanced react e rest clock) := by
  obtain ⟨e, rest, queue⟩ := List.exists_cons_of_ne_nil more
  refine ⟨e, rest, queue, (round_cases react queue).resolve_left ?_⟩
  rintro ⟨-, overflow, -⟩
  cases fault.symm.trans overflow

/-- The loop comes to one end only. -/
theorem Loops.unique (h : Loops react d o) (h' : Loops react d o') : o = o' := by
  have filled : ∀ {d : Draining σ}, (round react d).fault ≠ none → d.batch.queue ≠ [] :=
    fun fault empty => by
      obtain ⟨e, rest, queue⟩ := exists_of_fault fault
      cases empty.symm.trans queue
  induction h generalizing o' with
  | ends empty =>
    cases h' with
    | ends => rfl
    | breaks fault => exact absurd empty (filled fault)
    | goesOn more => exact absurd empty more
  | breaks fault =>
    cases h' with
    | ends empty => exact absurd empty (filled fault)
    | breaks => rfl
    | goesOn _ fault' => exact absurd fault' fault
  | goesOn more fault _ ih =>
    cases h' with
    | ends empty => exact absurd empty more
    | breaks fault' => exact absurd fault fault'
    | goesOn _ _ rest => rw [ih rest]

/-! ## The loop comes to its end -/

theorem pushedIn_of_empty (react : Handler σ) (empty : d.batch.queue = []) (n : Nat) :
    pushedIn react n d = [] := by
  have idle : rounds react n d = .ok d := by
    induction n with
    | zero => rfl
    | succ n ih => rw [rounds, round, empty, Outcome.ok_andThen, ih]
  rw [pushedIn, idle]
  rfl

theorem pushedIn_of_fault (queue : d.batch.queue = e :: rest)
    (fault : (round react d).fault ≠ none) (n : Nat) :
    (pushedIn react n d).length ≤ (react e d.content).pushed.length := by
  cases n with
  | zero => exact Nat.zero_le _
  | succ n =>
    obtain ⟨f, fault⟩ := Option.ne_none_iff_exists'.mp fault
    rcases round_cases react queue with ⟨trace, -⟩ | ⟨clock, -, done⟩
    · rw [pushedIn, rounds, Outcome.andThen_of_fault fault, trace]
      simp [Call.pointer?, Handler.pushed]
    · rw [done] at fault
      cases fault

/-- What content pushes in a round comes before what it pushes in the later ones. -/
theorem pushedIn_succ {clock : Duration}
    (done : round react d = .emit (.pointer e) (d.advanced react e rest clock)) (n : Nat) :
    pushedIn react (n + 1) d =
      (react e d.content).pushed ++ pushedIn react n (d.advanced react e rest clock) := by
  have calls : (rounds react (n + 1) d).trace =
      .pointer e :: (rounds react n (d.advanced react e rest clock)).trace := by
    rw [rounds, done]
    rfl
  rw [pushedIn, calls, List.filterMap_cons_some (show (Call.pointer e).pointer? = some e from rfl)]
  rfl

theorem exists_loops_of_le (m : Nat) (d : Draining σ)
    (few : ∀ n, (pushedIn react n d).length + d.batch.queue.length ≤ m) :
    ∃ o, Loops react d o := by
  induction m generalizing d with
  | zero =>
    have none := few 0
    exact ⟨_, .ends (List.eq_nil_of_length_eq_zero (by omega))⟩
  | succ m ih =>
    cases queue : d.batch.queue with
    | nil => exact ⟨_, .ends queue⟩
    | cons e rest =>
      rcases round_cases react queue with ⟨-, fault, -⟩ | ⟨clock, -, done⟩
      · exact ⟨_, .breaks (by simp [fault])⟩
      · obtain ⟨o, later⟩ := ih (d.advanced react e rest clock) fun n => by
          have all := few (n + 1)
          rw [pushedIn_succ done, queue] at all
          simp only [advanced, next, List.length_append, List.length_cons] at all ⊢
          omega
        exact ⟨_, .goesOn (by simp [queue]) (by rw [done]; rfl) (by rw [done]; exact later)⟩

/-- The loop comes to an end just where content pushes finitely many events. -/
theorem loops_iff : (∃ o, Loops react d o) ↔ PushesFinitely react d := by
  constructor
  · rintro ⟨o, h⟩
    induction h with
    | ends empty => exact ⟨0, fun n => by simp [pushedIn_of_empty react empty]⟩
    | breaks fault =>
      obtain ⟨e, rest, queue⟩ := exists_of_fault fault
      exact ⟨_, pushedIn_of_fault queue fault⟩
    | @goesOn d o more fault _ ih =>
      obtain ⟨e, rest, -, clock, -, done⟩ := exists_advanced more fault
      rw [done] at ih
      obtain ⟨k, few⟩ := ih
      refine ⟨(react e d.content).pushed.length + k, fun n => ?_⟩
      cases n with
      | zero => exact Nat.zero_le _
      | succ n =>
        rw [pushedIn_succ done, List.length_append]
        exact Nat.add_le_add_left (few n) _
  · rintro ⟨k, few⟩
    exact exists_loops_of_le (k + d.batch.queue.length) d fun n => Nat.add_le_add_right (few n) _

/-! ## The order of dispatch -/

/-- What the loop comes to: content is handed these events. -/
structure WorksOff (react : Handler σ) (d : Draining σ) (es : List PointerEvent)
    (o : Outcome Call (Draining σ)) : Prop where
  trace : o.trace = es.map Call.pointer
  /-- They are what is queued and, behind it, what content pushes meanwhile, as far as it gets. -/
  begins : es <+: d.batch.queue ++ react.pushed d.content es
  pending : o.state.batch.pending = d.batch.pending
  /-- There is no fault if the clock has time for all of them, -/
  inTime : o.fault = none ↔ d.clock.nanos + react.time d.content es ≤ Duration.limit
  /-- and then they are all that is queued and pushed, -/
  order : o.fault = none → es = d.batch.queue ++ react.pushed d.content es
  /-- they were counted, and nothing but the queue of the batch has changed. -/
  state : o.fault = none → o.state =
    { dispatched := d.dispatched + es.length
      batch := { pending := d.batch.pending, queue := [] }
      content := react.after d.content es
      clock := o.state.clock }

namespace WorksOff

theorem ends (react : Handler σ) (empty : d.batch.queue = []) : WorksOff react d [] (.ok d) where
  trace := rfl
  begins := List.nil_prefix
  pending := rfl
  inTime := ⟨fun _ => d.clock.within, fun _ => rfl⟩
  order _ := by rw [empty]; rfl
  state _ := by
    obtain ⟨dispatched, ⟨pending, queue⟩, content, clock⟩ := d
    cases empty
    rfl

theorem breaks (queue : d.batch.queue = e :: rest) (fault : (round react d).fault ≠ none) :
    WorksOff react d [e] (round react d) := by
  rcases round_cases react queue with ⟨trace, -, pending, late⟩ | ⟨clock, -, done⟩
  · refine ⟨trace, ?_, pending, ⟨fun ends => absurd ends fault, fun room => ?_⟩,
      fun ends => absurd ends fault, fun ends => absurd ends fault⟩
    · rw [queue]
      exact List.cons_prefix_cons.mpr ⟨rfl, List.nil_prefix⟩
    · rw [Handler.time, Handler.time, Nat.add_zero] at room
      exact absurd room (Nat.not_le_of_lt late)
  · rw [done] at fault
    exact absurd rfl fault

theorem goesOn {clock : Duration} (queue : d.batch.queue = e :: rest)
    (time : d.clock.nanos + (react e d.content).cost.nanos = clock.nanos)
    (done : round react d = .emit (.pointer e) (d.advanced react e rest clock))
    (later : WorksOff react (d.advanced react e rest clock) es o) :
    WorksOff react d (e :: es) ((round react d).andThen fun _ => o) := by
  have order : d.batch.queue ++ react.pushed d.content (e :: es) =
      e :: ((d.advanced react e rest clock).batch.queue ++
        react.pushed (d.advanced react e rest clock).content es) := by
    rw [queue, Handler.pushed, List.cons_append, ← List.append_assoc]
    rfl
  rw [done, Outcome.emit_andThen]
  refine ⟨congrArg _ later.trace, ?_, later.pending, later.inTime.trans ?_, fun ends => ?_,
    fun ends => ?_⟩
  · rw [order]
    exact List.cons_prefix_cons.mpr ⟨rfl, later.begins⟩
  · rw [Handler.time, ← Nat.add_assoc, time]
    rfl
  · rw [order, ← later.order ends]
  · have state := later.state ends
    rw [List.length_cons, Nat.add_comm es.length, ← Nat.add_assoc]
    exact state

end WorksOff

/-- The loop works off the queue in the order of arrival. -/
theorem Loops.worksOff (h : Loops react d o) : ∃ es, WorksOff react d es o := by
  induction h with
  | ends empty => exact ⟨[], .ends react empty⟩
  | breaks fault =>
    obtain ⟨e, rest, queue⟩ := exists_of_fault fault
    exact ⟨[e], .breaks queue fault⟩
  | goesOn more fault _ ih =>
    obtain ⟨e, rest, queue, clock, time, done⟩ := exists_advanced more fault
    rw [done] at ih
    obtain ⟨es, later⟩ := ih
    exact ⟨e :: es, .goesOn queue time done later⟩

/-! ## Content with a bound -/

section

variable [Content σ]

theorem exists_loops_drainWithin (n : Nat) (d : Draining σ) (enough : d.stage.outstanding ≤ n) :
    ∃ o, Loops Content.pointer d o ∧ o.map stage = Stage.drainWithin n d.stage := by
  induction n generalizing d with
  | zero =>
    rw [Stage.outstanding] at enough
    exact ⟨_, .ends (List.eq_nil_of_length_eq_zero (l := d.stage.queue) (by omega)), rfl⟩
  | succ n ih =>
    cases queue : d.batch.queue with
    | nil =>
      refine ⟨_, .ends queue, ?_⟩
      rw [Stage.drainWithin, show d.stage.queue = [] from queue]
      rfl
    | cons e rest =>
      have onStage : d.stage.queue = e :: rest := queue
      have less := Stage.outstanding_pointer onStage
      have here : (Stage.pointer e { d.stage with queue := rest }).map d.next =
          round Content.pointer d := by
        rw [round, queue]
        rfl
      rw [Stage.drainWithin, onStage]
      dsimp only
      cases fault : (Stage.pointer e { d.stage with queue := rest }).fault with
      | some f =>
        refine ⟨_, .breaks (by rw [← here, Outcome.fault_map, fault]; simp), ?_⟩
        rw [Outcome.andThen_of_fault fault, ← here]
        rfl
      | none =>
        obtain ⟨o, later, same⟩ :=
          ih (d.next (Stage.pointer e { d.stage with queue := rest }).state)
            (Nat.le_of_succ_le_succ (Nat.le_trans (less fault) enough))
        refine ⟨_, .goesOn (by simp [queue]) (by rw [← here]; exact fault)
          (by rw [← here]; exact later), ?_⟩
        rw [← here]
        rw [stage_next] at same
        simp only [Outcome.andThen, Outcome.fault_map, fault, ← same]
        rfl

/-- With content that bounds what it pushes, the drain is what the loop comes to. -/
theorem exists_loops_drain (d : Draining σ) :
    ∃ o, Loops Content.pointer d o ∧ o.map stage = d.stage.drain :=
  exists_loops_drainWithin _ d (Nat.le_refl _)

end

end Draining

end TabHost
