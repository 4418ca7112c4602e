import TabHost.Proofs.Batch.Burst
import TabHost.Proofs.Host.Violations
import TabHost.Proofs.Host.WheelOrder
import TabHost.Proofs.Host.Workload

/-!
# Bursts of wheel events that a host delivers

A burst of wheel events that waits alone is delivered event by event. Whatever pointer input the
tab dispatches before each of them, the clock has room for it all (`Seat.Affords`), and the batch
of the tab stands as the times of the events say (`Host.Midst`): an event that comes while content
is taken to be busy is held back (`Host.Midst.early`), and any other is dispatched
(`Host.Midst.late`). So content is handed what `Burst.handed` tells (`Host.burst_handed`).

If all events between the first and the last come before content is done with the first, they are
handed to it as one. A longer burst is cut, for the estimate is counted from the event that was
dispatched last and not from the event before (`Host.burst_cut`).
-/

set_option linter.unusedSectionVars false

namespace TabHost

variable {σ : Type} [Content σ] {time : Duration}

/-! ## Queues of one priority -/

namespace RunQueue

variable {q : RunQueue} {p : Priority} {ts : List Task} {es : List Envelope}

/-- All work waits at one priority. -/
def only (p : Priority) (ts : List Task) : RunQueue :=
  match p with
  | .input => { input := ts }
  | .normal => { normal := ts }

@[simp] theorem tasks_only (p : Priority) (ts : List Task) : (only p ts).tasks p = ts := by
  cases p <;> rfl

@[simp] theorem pop?_only (p : Priority) (t : Task) (ts : List Task) :
    (only p (t :: ts)).pop? = some (t, only p ts) := by
  cases p <;> rfl

@[simp] theorem isIdle_only (p : Priority) : (only p []).isIdle = true := by
  cases p <;> rfl

theorem work_only (p : Priority) (ts : List Task) : (only p ts).work = Task.totalWork ts := by
  cases p <;> simp [only, work, Task.totalWork]

theorem eq_only_of_isIdle (h : q.isIdle = true) (p : Priority) : q = only p [] := by
  obtain ⟨input, normal⟩ := q
  obtain ⟨rfl, rfl⟩ : input = [] ∧ normal = [] := by simpa [isIdle] using h
  cases p <;> rfl

theorem deliver_all_only (h : ∀ e ∈ es, e.priority = p) (ts : List Task) :
    es.foldl (fun q e => q.deliver e) (only p ts) = only p (ts ++ es.map .deliver) := by
  induction es generalizing ts with
  | nil => rw [List.foldl_nil, List.map_nil, List.append_nil]
  | cons e es ih =>
    have first : (only p ts).deliver e = only p (ts ++ [.deliver e]) := by
      rw [deliver, h e List.mem_cons_self]
      cases p <;> rfl
    rw [List.foldl_cons, first, ih fun e' he => h e' (List.mem_cons_of_mem _ he)]
    simp

end RunQueue

/-! ## A tab with room on the clock -/

/-- How many pointer events a tab may still dispatch: those that wait, and those that its content
can push. -/
def Tab.outstanding (t : Tab σ) : Nat :=
  (match t.moves with
    | none => 0
    | some b => b.pending.length + b.queue.length) + Content.backlog t.content

namespace Seat

variable {s : Seat σ} {n m : Nat}

/-- Content takes a fixed time for every event, and the clock has room for all pointer events that
the tab may still dispatch, and for so many wheel events. -/
structure Affords (time : Duration) (n : Nat) (s : Seat σ) : Prop where
  takes : Content.Takes time s.tab.content
  room : s.shared.clock.nanos + time.nanos * (s.tab.outstanding + n) ≤ Duration.limit

/-- A stage that has no more outstanding than before leaves the tab no more. -/
theorem outstanding_leaveStage {stage : Stage σ} (h : stage.outstanding ≤ s.stage.outstanding) :
    (s.leaveStage stage).tab.outstanding ≤ s.tab.outstanding := by
  unfold Stage.outstanding Seat.stage at h
  unfold Tab.outstanding leaveStage
  cases hm : s.tab.moves with
  | none =>
    simp only [hm, List.length_nil] at h
    simp only [Option.map_none]
    omega
  | some b =>
    simp only [hm] at h
    simp only [Option.map_some]
    omega

variable {b : MoveBatch}

/-- Once the moves that wait are queued, all that is outstanding is on stage, -/
theorem outstanding_flush (hm : s.tab.moves = some b) :
    (s.onMoves MoveBatch.flush).stage.outstanding = s.tab.outstanding := by
  simp only [Stage.outstanding, stage, onMoves, hm, Option.map_some, MoveBatch.flush,
    List.length_append, List.length_map, Tab.outstanding]
  omega

/-- and what is left there is what the tab is left with. -/
theorem outstanding_drain (hm : s.tab.moves = some b) :
    (drain (s.onMoves MoveBatch.flush)).state.tab.outstanding =
      (s.onMoves MoveBatch.flush).stage.drain.state.outstanding := by
  simp [drain, perform, leaveStage, onMoves, hm, Tab.outstanding, MoveBatch.flush,
    Stage.outstanding]

theorem affords_drain (hm : s.tab.moves = some b) (h : s.Affords time n) :
    (drain (s.onMoves MoveBatch.flush)).fault = none ∧
      (drain (s.onMoves MoveBatch.flush)).state.Affords time n := by
  have room := h.room
  rw [Nat.mul_add, ← outstanding_flush hm] at room
  obtain ⟨fault, takes, spends⟩ := Stage.drain_of_takes
    (s := (s.onMoves MoveBatch.flush).stage) h.takes
    (Nat.le_trans (Nat.add_le_add_left (Nat.le_add_right ..) _) room)
  refine ⟨fault, takes, ?_⟩
  have clock : (s.onMoves MoveBatch.flush).stage.clock = s.shared.clock := rfl
  rw [clock] at spends
  rw [outstanding_drain hm, Nat.mul_add]
  show (s.onMoves MoveBatch.flush).stage.drain.state.clock.nanos + _ ≤ _
  omega

/-- The pointer input that waits can be dispatched, and all else can be as before. -/
theorem affords_flushInput (h : s.Affords time n) :
    (flushInput s).fault = none ∧ (flushInput s).state.Affords time n := by
  unfold flushInput
  split
  · cases hm : s.tab.moves with
    | none => exact ⟨rfl, h⟩
    | some b =>
      dsimp only
      split
      · exact ⟨rfl, h⟩
      · exact affords_drain hm h
  · exact ⟨rfl, h⟩

theorem affords_performWheel {f : WheelBatch × Stage σ → Outcome Call (WheelBatch × Stage σ)}
    (spends : Stage.Spends time m s.stage (f (s.tab.wheel, s.stage)).state.2)
    (h : s.Affords time (n + m)) : (performWheel f s).state.Affords time n := by
  refine ⟨spends.takes, ?_⟩
  have room := h.room
  have clock : (performWheel f s).state.shared.clock.nanos =
      s.shared.clock.nanos + time.nanos * m := spends.clock
  have less : (performWheel f s).state.tab.outstanding ≤ s.tab.outstanding :=
    outstanding_leaveStage spends.outstanding
  have bound := Nat.mul_le_mul_left time.nanos
    (Nat.add_le_add_right less n)
  rw [← Nat.add_assoc, Nat.mul_add] at room
  rw [clock]
  omega

/-! ## A wheel event -/

/-- What a tab makes of a wheel event: content is handed some, and the clock has room for some
more. -/
structure TakesIn (time : Duration) (n : Nat) (calls : List Call) (s : Seat σ)
    (o : Outcome Effect (Seat σ)) : Prop where
  fault : o.fault = none
  calls : wheelCalls s.tab.id o.trace = calls
  affords : o.state.Affords time n

/-- What the batch makes of a wheel event is what the tab does, once the pointer input that waited
is dispatched. -/
theorem takesIn_wheelEvent (e : WheelEvent) (nextIsWheel : Bool) {calls : List Call}
    (left : WheelBatch → Prop) (batches : s.tab.settings.batchWheel = true)
    (h : s.Affords time (n + m))
    (hands : ∀ stage : Stage σ, Content.Takes time stage.content →
      stage.clock.nanos + time.nanos * m ≤ Duration.limit →
      WheelBatch.Hands time m calls stage (WheelBatch.handle e nextIsWheel (s.tab.wheel, stage)) ∧
        left (WheelBatch.handle e nextIsWheel (s.tab.wheel, stage)).state.1) :
    TakesIn time n calls s (wheelEvent e nextIsWheel s) ∧
      left (wheelEvent e nextIsWheel s).state.tab.wheel := by
  obtain ⟨flushed, affords⟩ := affords_flushInput h
  have quiet : wheelCalls s.tab.id (flushInput s).trace = [] :=
    wheelCalls_of_pointer fun c => pointer_of_mem_flushInput
  have id : (flushInput s).state.tab.id = s.tab.id := (feeds_flushInput s).id
  have room := affords.room
  rw [← Nat.add_assoc, Nat.mul_add] at room
  obtain ⟨hands, left⟩ := hands (flushInput s).state.stage affords.takes
    (by simp only [Seat.stage]; omega)
  rw [← wheel_flushInput s] at hands left
  unfold wheelEvent
  simp only [batches, if_true]
  generalize flushInput s = o at *
  have calls := wheelCalls_performWheel o.state
    (WheelBatch.handles_handle e nextIsWheel (o.state.tab.wheel, o.state.stage))
  refine ⟨⟨?_, ?_, ?_⟩, ?_⟩
  · rw [Outcome.fault_andThen flushed]
    exact hands.fault
  · rw [Outcome.trace_andThen flushed, wheelCalls_append, quiet, List.nil_append, ← id, calls]
    exact hands.trace
  · rw [Outcome.state_andThen flushed]
    exact affords_performWheel hands.spends affords
  · rw [Outcome.state_andThen flushed]
    exact left

end Seat

/-! ## Deliveries -/

/-- Where wheel events come in: for a tab, over a channel, at a priority. -/
structure WheelSource where
  tab : TabId
  channel : Channel := .content
  priority : Priority := .normal

/-- A wheel event as it is posted. -/
def WheelSource.envelope (src : WheelSource) (e : WheelEvent) : Envelope :=
  { tab := src.tab, channel := src.channel, priority := src.priority, request := .wheel e }

/-- Wheel events that wait for their delivery. -/
def WheelSource.tasks (src : WheelSource) (es : List WheelEvent) : List Task :=
  es.map fun e => .deliver (src.envelope e)

/-- Each of them is one delivery, which makes no work. -/
theorem WheelSource.totalWork_tasks (src : WheelSource) (es : List WheelEvent) :
    Task.totalWork (src.tasks es) = es.length := by
  induction es with
  | nil => rfl
  | cons e es ih =>
    show 1 + Task.totalWork (src.tasks es) = es.length + 1
    rw [ih, Nat.add_comm]

namespace Host

variable {h : Host σ} {t : Tab σ} {src : WheelSource} {e : WheelEvent} {rest : List WheelEvent}

/-- A tab with what it shares while some other work waits. -/
def seat (h : Host σ) (t : Tab σ) (q : RunQueue) : Seat σ :=
  { tab := t, shared := { h.shared with queue := q } }

/-- The delivery of the wheel event that is due is what its tab does with it. -/
theorem step_wheel (build : Build) (sound : h.Sound) (empty : h.inbox = [])
    (queue : h.shared.queue = .only src.priority (src.tasks (e :: rest)))
    (hosted : h.tabs.get? src.tab = some t) (live : t.state.isLive = true)
    {o : Outcome Effect (Seat σ)} (ho : o = Seat.wheelEvent e (!rest.isEmpty)
      (h.seat t (.only src.priority (src.tasks rest)))) :
    (h.step build .runOne).fault = o.fault ∧ (h.step build .runOne).trace = o.trace ∧
      (h.step build .runOne).state.tabs.get? src.tab = some o.state.tab ∧
      (h.step build .runOne).state.shared = o.state.shared ∧
      (h.step build .runOne).state.inbox = [] := by
  have due : h.takeTask? = some (.deliver (src.envelope e),
      { h with shared := { h.shared with queue := .only src.priority (src.tasks rest) } }) := by
    rw [takeTask?, h.pullInbox_of_nil empty, queue]
    simp [WheelSource.tasks]
  have next : (RunQueue.only src.priority (src.tasks rest)).nextIsWheel t.id src.channel
      src.priority = !rest.isEmpty := by
    rw [RunQueue.nextIsWheel, RunQueue.tasks_only, (sound _ _ hosted).2.id]
    cases rest with
    | nil => rfl
    | cons e' rest' =>
      simp [WheelSource.tasks, WheelSource.envelope, RunQueue.envelopeOn?, Request.isWheel]
  have acts : Acts build h src.tab (.request (src.envelope e))
      (h.seat t (.only src.priority (src.tasks rest))) (h.step build .runOne) :=
    acts_of_deed build sound (deed?_runOne due) hosted
  have performed : Seat.act build (.request (src.envelope e))
      (h.seat t (.only src.priority (src.tasks rest))) = o := by
    rw [Seat.act_wheel build (w := e) live rfl, ho]
    exact congrArg (fun next => Seat.wheelEvent e next _) next
  obtain ⟨trace, fault, shared, -, own⟩ := acts
  rw [performed] at trace fault shared own
  refine ⟨fault, trace, own.resolve_right fun gone => ?_, shared, ?_⟩
  · have state : o.state.tab.state = t.state := by
      rw [ho]
      exact (Seat.feeds_wheelEvent e (!rest.isEmpty) _).state
    rw [← state, gone.2] at live
    cases live
  · rw [step_runOne build due]
    exact inbox_of_task build due

/-- So many tasks hand content some wheel events, and then no work waits. -/
structure Delivers (build : Build) (src : WheelSource) (n : Nat) (es : List WheelEvent)
    (h : Host σ) : Prop where
  fault : (h.runs build (List.replicate n .runOne)).fault = none
  calls : wheelCalls src.tab (h.runs build (List.replicate n .runOne)).trace = es.map .wheel
  inbox : (h.runs build (List.replicate n .runOne)).state.inbox = []
  idle : (h.runs build (List.replicate n .runOne)).state.shared.queue.isIdle = true

/-- One task more, which hands content some. -/
theorem Delivers.cons {build : Build} {n : Nat} (es : List WheelEvent) {es' : List WheelEvent}
    (fault : (h.step build .runOne).fault = none)
    (calls : wheelCalls src.tab (h.step build .runOne).trace = es.map .wheel)
    (later : (h.step build .runOne).state.Delivers build src n es') :
    h.Delivers build src (n + 1) (es ++ es') := by
  constructor <;> rw [List.replicate_succ, runs]
  · rw [Outcome.fault_andThen fault]
    exact later.fault
  · rw [Outcome.trace_andThen fault, wheelCalls_append, calls, later.calls, List.map_append]
  · rw [Outcome.state_andThen fault]
    exact later.inbox
  · rw [Outcome.state_andThen fault]
    exact later.idle

/-! ## In the midst of a burst -/

/-- A host that delivers a burst: some events are held back, the others wait alone, and content is
taken to be busy up to an instant. The clock has room for so many dispatches of wheel events. -/
structure Midst (src : WheelSource) (time : Duration) (k : WheelCompatibility) (n : Nat)
    (held rest : List WheelEvent) (busy : Nat) (h : Host σ) (t : Tab σ) : Prop where
  sound : h.Sound
  inbox : h.inbox = []
  queue : h.shared.queue = .only src.priority (src.tasks rest)
  hosted : h.tabs.get? src.tab = some t
  live : t.state.isLive = true
  batches : t.settings.batchWheel = true
  affords : Seat.Affords time n { tab := t, shared := h.shared }
  pending : t.wheel.pending.map WheelRecord.event = Burst.merged held
  busyUntil : t.wheel.busyUntil = busy
  room : busy ≤ Duration.limit
  fits : ∀ e ∈ held ++ rest, e.phase = .delta ∧ e.compatibility = k

namespace Midst

variable {k : WheelCompatibility} {n busy : Nat} {held : List WheelEvent}

theorem heldBack (m : h.Midst src time k n held rest busy t) :
    t.wheel.heldBack = (Burst.merged held).toList.length := by
  rw [← m.pending, WheelBatch.heldBack]
  cases t.wheel.pending <;> rfl

theorem pendingCalls (m : h.Midst src time k n held rest busy t) :
    t.wheel.pendingCalls = (Burst.merged held).toList.map .wheel := by
  rw [← m.pending, WheelBatch.pendingCalls]
  cases t.wheel.pending <;> rfl

/-- What is held back fits all that waits. -/
theorem isCompatible (m : h.Midst src time k n held (e :: rest) busy t) :
    t.wheel.isCompatible e = true := by
  unfold WheelBatch.isCompatible
  cases hp : t.wheel.pending with
  | none => rfl
  | some r =>
    have pending := m.pending
    rw [hp] at pending
    have here := (m.fits e (by simp)).2
    have total := Burst.compatibility_merged
      (fun e' he => (m.fits e' (List.mem_append_left _ he)).2) pending.symm
    simp [total, here]

/-- The burst goes on with what the tab makes of the event that is due. -/
theorem next (m : h.Midst src time k n held (e :: rest) busy t) (build : Build) {n' busy' : Nat}
    {held' : List WheelEvent} {calls : List Call} (room : busy' ≤ Duration.limit)
    (fits : ∀ e ∈ held' ++ rest, e.phase = .delta ∧ e.compatibility = k)
    {o : Outcome Effect (Seat σ)} (ho : o = Seat.wheelEvent e (!rest.isEmpty)
      (h.seat t (.only src.priority (src.tasks rest))))
    (takes : Seat.TakesIn time n' calls (h.seat t (.only src.priority (src.tasks rest))) o)
    (pending : o.state.tab.wheel.pending.map WheelRecord.event = Burst.merged held')
    (busyUntil : o.state.tab.wheel.busyUntil = busy') :
    (h.step build .runOne).fault = none ∧ wheelCalls src.tab (h.step build .runOne).trace = calls ∧
      ∃ t', (h.step build .runOne).state.Midst src time k n' held' rest busy' t' := by
  obtain ⟨fault, trace, hosted, shared, inbox⟩ :=
    step_wheel build m.sound m.inbox m.queue m.hosted m.live ho
  have feeds : Seat.Feeds (h.seat t (.only src.priority (src.tasks rest))) o := by
    rw [ho]
    exact Seat.feeds_wheelEvent ..
  refine ⟨fault.trans takes.fault, ?_, o.state.tab, sound_step build m.sound .runOne, inbox, ?_,
    hosted, ?_, ?_, ?_, pending, busyUntil, room, fits⟩
  · rw [trace, ← (m.sound _ _ m.hosted).2.id]
    exact takes.calls
  · rw [shared]
    exact feeds.queue
  · rw [feeds.state]
    exact m.live
  · exact (congrArg (fun s => s.settings.batchWheel) feeds.standing).trans m.batches
  · rw [shared]
    exact takes.affords

theorem affords_seat (m : h.Midst src time k n held rest busy t) (q : RunQueue) :
    (h.seat t q).Affords time n := ⟨m.affords.takes, m.affords.room⟩

variable {more : List WheelEvent} {e' : WheelEvent}

/-- An event that comes while content is taken to be busy is held back. -/
theorem early (m : h.Midst src time k n held (e :: e' :: more) busy t) (build : Build)
    (early : e.timestamp.nanos < busy) :
    (h.step build .runOne).fault = none ∧ wheelCalls src.tab (h.step build .runOne).trace = [] ∧
      ∃ t', (h.step build .runOne).state.Midst src time k n (held ++ [e]) (e' :: more) busy t' := by
  obtain ⟨takes, wheel⟩ := Seat.takesIn_wheelEvent (n := n) (m := 0) e true (· = t.wheel.hold e)
    m.batches (m.affords_seat (.only src.priority (src.tasks (e' :: more)))) fun stage takes _ =>
      WheelBatch.handle_early (m.fits e (by simp)).1 m.isCompatible (m.busyUntil ▸ m.room)
        (m.busyUntil ▸ early) takes
  refine m.next build m.room ?_ rfl takes ?_ ?_
  · rw [List.append_assoc]
    exact m.fits
  · show (Seat.wheelEvent e true _).state.tab.wheel.pending.map _ = _
    rw [wheel, Burst.merged_concat, ← m.pending]
    unfold WheelBatch.hold
    cases t.wheel.pending <;> rfl
  · show (Seat.wheelEvent e true _).state.tab.wheel.busyUntil = _
    rw [wheel]
    exact m.busyUntil

/-- Any other that another one follows is dispatched behind what was held back. -/
theorem late
    (m : h.Midst src time k (n + ((Burst.merged held).toList.length + 1)) held (e :: e' :: more)
      busy t) (build : Build) (late : busy ≤ e.timestamp.nanos)
    (room : e.timestamp.nanos + 2 * (time.nanos * ((Burst.merged held).toList.length + 1)) ≤
      Duration.limit) :
    (h.step build .runOne).fault = none ∧
      wheelCalls src.tab (h.step build .runOne).trace =
        ((Burst.merged held).toList ++ [e]).map .wheel ∧
      ∃ t', (h.step build .runOne).state.Midst src time k n [] (e' :: more)
        (e.timestamp.nanos + 2 * (time.nanos * ((Burst.merged held).toList.length + 1))) t' := by
  have affords := m.affords_seat (.only src.priority (src.tasks (e' :: more)))
  rw [← m.heldBack] at affords room ⊢
  obtain ⟨takes, pending, busyUntil⟩ := Seat.takesIn_wheelEvent e true
    (fun w => w.pending = none ∧ w.busyUntil =
      e.timestamp.nanos + 2 * (time.nanos * (t.wheel.heldBack + 1))) m.batches affords
    fun stage takes space => WheelBatch.handle_late (m.fits e (by simp)).1 (m.busyUntil ▸ m.room)
      (m.busyUntil ▸ late) takes space (by omega)
  rw [List.map_append, ← m.pendingCalls]
  refine m.next build room (fun e'' he => m.fits e'' ?_) rfl takes ?_ busyUntil
  · exact List.mem_append_right _ (List.mem_cons_of_mem _ he)
  · show (Seat.wheelEvent e true _).state.tab.wheel.pending.map _ = _
    rw [pending]
    rfl

/-- The last one is dispatched, whenever it comes. -/
theorem last
    (m : h.Midst src time k ((Burst.merged held).toList.length + 1) held [e] busy t)
    (build : Build) : h.Delivers build src 1 ((Burst.merged held).toList ++ [e]) := by
  have affords := m.affords_seat (.only src.priority (src.tasks []))
  rw [← m.heldBack, ← Nat.zero_add (t.wheel.heldBack + 1)] at affords
  obtain ⟨takes, -⟩ := Seat.takesIn_wheelEvent e false (fun _ => True) m.batches affords
    fun stage takes space => ⟨WheelBatch.handle_last takes space, trivial⟩
  obtain ⟨fault, trace, -, shared, inbox⟩ :=
    step_wheel build m.sound m.inbox m.queue m.hosted m.live rfl
  have one : h.runs build (List.replicate 1 .runOne) = h.step build .runOne :=
    runs_singleton build .runOne h
  constructor <;> rw [one]
  · exact fault.trans takes.fault
  · rw [trace, ← (m.sound _ _ m.hosted).2.id, List.map_append, ← m.pendingCalls]
    exact takes.calls
  · exact inbox
  · rw [shared, (Seat.feeds_wheelEvent ..).queue]
    exact RunQueue.isIdle_only src.priority

/-- What comes of the rest of a burst, if the next event of it is held back where none is yet. -/
theorem delivers {middle : List WheelEvent} {last : WheelEvent} (build : Build)
    (m : h.Midst src time k (Burst.handed time.nanos busy held middle last).length held
      (middle ++ [last]) busy t)
    (soon : held = [] → ∀ e ∈ middle.head?, e.timestamp.nanos < busy)
    (close : middle.IsChain fun a b => b.timestamp.nanos < a.timestamp.nanos + time.nanos)
    (room : ∀ e ∈ middle, busy ≤ e.timestamp.nanos →
      e.timestamp.nanos + 4 * time.nanos ≤ Duration.limit) :
    h.Delivers build src (middle.length + 1) (Burst.handed time.nanos busy held middle last) := by
  induction middle generalizing h t held busy with
  | nil =>
    rw [Burst.handed, List.length_append, List.length_singleton] at m
    exact m.last build
  | cons e middle ih =>
    -- whatever comes of the event, some event waits behind it
    obtain ⟨e', more, rest⟩ : ∃ e' more, middle ++ [last] = e' :: more :=
      List.exists_cons_of_ne_nil (by simp)
    obtain ⟨next, chain⟩ := List.isChain_cons.mp close
    rw [List.cons_append, rest] at m
    by_cases early : e.timestamp.nanos < busy
    · rw [Burst.handed, if_pos early] at m ⊢
      obtain ⟨fault, calls, t', m'⟩ := m.early build early
      rw [← rest] at m'
      exact .cons [] fault calls (ih m' (fun none => absurd none (by simp)) chain
        fun e'' he => room e'' (List.mem_cons_of_mem _ he))
    · have late : busy ≤ e.timestamp.nanos := Nat.not_lt.mp early
      have some : held ≠ [] := fun none => early (soon none e rfl)
      have one := Burst.length_merged some
      have span : 2 * (time.nanos * (1 + 1)) = 4 * time.nanos := by omega
      have here := room e List.mem_cons_self late
      rw [Burst.handed, if_neg early] at m ⊢
      rw [List.length_append, List.length_cons, Nat.add_left_comm] at m
      obtain ⟨fault, calls, t', m'⟩ := m.late build late (by rw [one, span]; exact here)
      rw [one, span, ← rest] at m'
      rw [List.append_cons]
      refine .cons _ fault calls (ih m' (fun _ e'' he => ?_) chain fun e'' he later => ?_)
      · have := next e'' he
        omega
      · exact room e'' (List.mem_cons_of_mem _ he) (by omega)

end Midst

/-! ## A burst that waits alone -/

theorem wheelCalls_flushTabs (tab : TabId) (tabs : List TabId) (h : Host σ) :
    wheelCalls tab (h.flushTabs tabs).trace = [] := by
  have one : ∀ (first : TabId) (h : Host σ),
      wheelCalls tab (h.onTab first Seat.flushInput).trace = [] := by
    intro first h
    cases ht : h.tabs.get? first with
    | none =>
      rw [onTab_of_none ht]
      rfl
    | some t =>
      rw [onTab_of_some ht]
      exact wheelCalls_of_pointer fun c => Seat.pointer_of_mem_flushInput
  induction tabs generalizing h with
  | nil => rfl
  | cons first rest ih =>
    rw [flushTabs]
    cases hf : (h.onTab first Seat.flushInput).fault with
    | some f =>
      rw [Outcome.andThen_of_fault hf]
      exact one first h
    | none => rw [Outcome.trace_andThen hf, wheelCalls_append, one, ih, List.append_nil]

/-- Tasks that come to their ends are what a run until idle does before it lets the tabs dispatch
what they kept back. -/
theorem Delivers.start {build : Build} {n : Nat} {es : List WheelEvent}
    (d : h.Delivers build src n es) (enough : n ≤ h.work) :
    h.start build = (h.runs build (List.replicate n .runOne)).andThen flushAll ∧
      wheelCalls src.tab (h.start build).trace = es.map .wheel := by
  have ended : (h.runs build (List.replicate n .runOne)).state.takeTask? = none := by
    rw [takeTask?_eq_none_iff, pullInbox_of_nil _ d.inbox]
    exact d.idle
  have tasks : h.runs build (List.replicate (h.work + 1) .runOne) =
      h.runs build (List.replicate n .runOne) := by
    obtain ⟨more, split⟩ : ∃ more, h.work + 1 = n + more :=
      ⟨h.work + 1 - n, (Nat.add_sub_cancel' (Nat.le_succ_of_le enough)).symm⟩
    rw [split, ← List.replicate_append_replicate, runs_append,
      Outcome.andThen_congr (runs_runOne_of_idle build d.inbox ended more), Outcome.andThen_ok]
  have whole : h.start build = (h.runs build (List.replicate n .runOne)).andThen flushAll := by
    rw [start_eq_runs, idleEvents, runs_append, tasks]
    exact Outcome.andThen_congr (flushTabs_eq_runs build _ _).symm
  refine ⟨whole, ?_⟩
  rw [whole, Outcome.trace_andThen d.fault, wheelCalls_append, flushAll, wheelCalls_flushTabs,
    List.append_nil]
  exact d.calls

/-- Wheel events are all the work that waits. -/
def Awaits (h : Host σ) (src : WheelSource) (es : List WheelEvent) : Prop :=
  h.pullInbox.shared.queue = .only src.priority (src.tasks es)

/-- Where no work waits, wheel events that are posted are all that waits then. -/
theorem awaits_posts (build : Build) (empty : h.inbox = [])
    (idle : h.shared.queue.isIdle = true) (src : WheelSource) (es : List WheelEvent) :
    h.runs build (es.map fun e => .post (src.envelope e)) =
        .ok { h with inbox := es.map src.envelope } ∧
      Awaits { h with inbox := es.map src.envelope } src es := by
  have posted : ∀ (es : List WheelEvent) (h : Host σ),
      h.runs build (es.map fun e => .post (src.envelope e)) =
        .ok { h with inbox := h.inbox ++ es.map src.envelope } := by
    intro es
    induction es with
    | nil => simp [runs]
    | cons e es ih =>
      intro h
      rw [List.map_cons, runs, step, Outcome.ok_andThen, ih]
      simp [post]
  refine ⟨?_, ?_⟩
  · rw [posted, empty, List.nil_append]
  · have placed : ∀ e ∈ es.map src.envelope, e.priority = src.priority := by
      intro e he
      obtain ⟨w, -, rfl⟩ := List.mem_map.mp he
      rfl
    show (es.map src.envelope).foldl (fun q e => q.deliver e) h.shared.queue = _
    rw [RunQueue.eq_only_of_isIdle idle src.priority, RunQueue.deliver_all_only placed,
      List.nil_append, WheelSource.tasks, List.map_map]
    rfl

theorem Awaits.work {es : List WheelEvent} (awaits : h.Awaits src es) : h.work = es.length := by
  rw [Host.work, awaits, RunQueue.work_only, WheelSource.totalWork_tasks]

/-- A burst for a tab with no wheel event left is delivered as the times of its events tell. -/
theorem delivers_burst (build : Build) (sound : h.Sound) (hosted : h.tabs.get? src.tab = some t)
    (live : t.state.isLive = true) (batches : t.settings.batchWheel = true)
    (fresh : t.wheel.IsIdle) (takes : Content.Takes time t.content)
    {first last : WheelEvent} {middle : List WheelEvent}
    (burst : IsBurst time (first :: middle ++ [last]))
    (awaits : h.Awaits src (first :: middle ++ [last]))
    (room : h.shared.clock.nanos + time.nanos * (t.outstanding +
      (Burst.dispatched time first middle last).length) ≤ Duration.limit)
    (room' : first.timestamp.nanos + 2 * time.nanos ≤ Duration.limit)
    (later : ∀ e ∈ middle, first.timestamp.nanos + 2 * time.nanos ≤ e.timestamp.nanos →
      e.timestamp.nanos + 4 * time.nanos ≤ Duration.limit) :
    h.Delivers build src (middle.length + 2) (Burst.dispatched time first middle last) := by
  -- none is held back before the first event
  have none : (Burst.merged []).toList.length + 1 = 1 := rfl
  have midst : h.pullInbox.Midst src time first.compatibility ((Burst.handed time.nanos
      (first.timestamp.nanos + 2 * time.nanos) [] middle last).length +
      ((Burst.merged []).toList.length + 1)) [] (first :: (middle ++ [last])) 0 t :=
    { sound := sound
      inbox := rfl
      queue := awaits
      hosted := hosted
      live := live
      batches := batches
      affords := ⟨takes, room⟩
      pending := by rw [fresh.pending]; rfl
      busyUntil := by rw [WheelBatch.busyUntil, fresh.lastProcessed]
      room := Nat.zero_le _
      fits := fun e he => ⟨burst.phase e he, burst.alike e he first List.mem_cons_self⟩ }
  have chain := (List.isChain_cons.mp burst.close).2
  obtain ⟨e', more, rest⟩ : ∃ e' more, middle ++ [last] = e' :: more :=
    List.exists_cons_of_ne_nil (by simp)
  rw [rest] at midst
  obtain ⟨fault, calls, t', midst'⟩ := midst.late build (Nat.zero_le _) (by
    rw [none, Nat.mul_one]
    exact room')
  rw [none, Nat.mul_one, ← rest] at midst'
  have delivers := midst'.delivers build (fun _ => Burst.soon burst)
    (chain.left_of_append.imp fun _ _ near => near.2) later
  rw [Burst.dispatched, ← List.singleton_append]
  exact .cons (h := h) [first] fault calls delivers

/-- What a run until idle hands content of a burst that waits alone: the first event, the last
one, and those between as one, unless they last for longer than content is taken to be busy with
the first one. Then the burst is cut. -/
theorem burst_handed (build : Build) (hr : h.Reachable build)
    (hosted : h.tabs.get? src.tab = some t)
    (live : t.state.isLive = true) (batches : t.settings.batchWheel = true)
    (fresh : t.wheel.IsIdle) (takes : Content.Takes time t.content)
    {first last : WheelEvent} {middle : List WheelEvent}
    (burst : IsBurst time (first :: middle ++ [last]))
    (awaits : h.Awaits src (first :: middle ++ [last]))
    (room : h.shared.clock.nanos + time.nanos * (t.outstanding +
      (Burst.dispatched time first middle last).length) ≤ Duration.limit)
    (room' : first.timestamp.nanos + 2 * time.nanos ≤ Duration.limit)
    (later : ∀ e ∈ middle, first.timestamp.nanos + 2 * time.nanos ≤ e.timestamp.nanos →
      e.timestamp.nanos + 4 * time.nanos ≤ Duration.limit) :
    (h.runs build (List.replicate (middle.length + 2) .runOne)).fault = none ∧
      h.start build =
        (h.runs build (List.replicate (middle.length + 2) .runOne)).andThen flushAll ∧
      wheelCalls src.tab (h.start build).trace =
        (Burst.dispatched time first middle last).map .wheel ∧
      ((∀ e ∈ middle, e.timestamp.nanos < first.timestamp.nanos + 2 * time.nanos) →
        wheelCalls src.tab (h.start build).trace =
          (first :: (Burst.merged middle).toList ++ [last]).map .wheel) ∧
      ((∃ e ∈ middle, first.timestamp.nanos + 2 * time.nanos ≤ e.timestamp.nanos) →
        3 < (wheelCalls src.tab (h.start build).trace).length) := by
  have delivers := delivers_burst build hr.sound hosted live batches fresh takes burst awaits room
    room' later
  obtain ⟨start, calls⟩ := delivers.start (by simp [awaits.work])
  refine ⟨delivers.fault, start, calls, fun early => ?_, fun late => ?_⟩
  · rw [calls, Burst.dispatched_of_early early]
  · rw [calls, List.length_map]
    exact Burst.length_dispatched_of_late burst late

/-- A wheel event at a time in milliseconds. -/
def scrollAt (time : UInt64) : WheelEvent := { timestamp := .ofNanos (time * 1000000) }

/-- Wheel events at some times that wait for the tab whose content takes ten milliseconds for
each. -/
def scrolling (times : List UInt64) : Host Headless :=
  { slow with inbox := (times.map scrollAt).map (WheelSource.envelope { tab := ⟨7⟩ }) }

theorem reachable_scrolling (times : List UInt64) : (scrolling times).Reachable .checked := by
  have posted := (awaits_posts .checked rfl rfl { tab := ⟨7⟩ } (times.map scrollAt) (h := slow)).1
  have posts := reachable_slow.runs (by rw [posted]; rfl)
  rwa [posted] at posts

theorem awaits_scrolling (times : List UInt64) :
    (scrolling times).Awaits { tab := ⟨7⟩ } (times.map scrollAt) :=
  (awaits_posts .checked rfl rfl _ _).2

/-- The tab that they wait for. -/
def slowTab : Tab Headless := (slow.tabs.get? ⟨7⟩).get rfl

theorem get?_scrolling (times : List UInt64) : (scrolling times).tabs.get? ⟨7⟩ = some slowTab :=
  (Option.some_get _).symm

/-- If the last but one of five events comes within twenty milliseconds, those between the first
and the last are handed to content as one. -/
theorem burst_handed_scroll : wheelCalls ⟨7⟩ ((scrolling [0, 5, 9, 12, 15]).start .checked).trace =
    (scrollAt 0 :: (Burst.merged [scrollAt 5, scrollAt 9, scrollAt 12]).toList ++
      [scrollAt 15]).map .wheel := by
  have burst : IsBurst (.ofNanos 10000000)
      (scrollAt 0 :: [scrollAt 5, scrollAt 9, scrollAt 12] ++ [scrollAt 15]) :=
    ⟨by decide, by decide, by decide⟩
  have handed := burst_handed .checked (reachable_scrolling _) (get?_scrolling _) rfl rfl
    ⟨rfl, rfl⟩ slowTab.content.takes burst (awaits_scrolling [0, 5, 9, 12, 15]) (by decide)
    (by decide) (by decide)
  exact handed.2.2.2.1 (by decide)

/-- If they come nine milliseconds apart each, content is handed the fourth one by itself. -/
theorem burst_cut : ¬∀ (time : Duration) (h : Host Headless) (src : WheelSource) (t : Tab Headless)
    (first last : WheelEvent) (middle : List WheelEvent), 0 < time.nanos → middle ≠ [] →
    h.Reachable .checked → h.tabs.get? src.tab = some t → t.state.isLive = true →
    t.settings.batchWheel = true → t.wheel.IsIdle → Content.Takes time t.content →
    IsBurst time (first :: middle ++ [last]) → h.Awaits src (first :: middle ++ [last]) →
    (h.start .checked).fault = none ∧ ∃ between : List WheelEvent, between.length ≤ 1 ∧
      (∀ e ∈ between, some e = Burst.merged middle) ∧
      wheelCalls src.tab (h.start .checked).trace = (first :: between ++ [last]).map .wheel := by
  intro claim
  obtain ⟨-, between, one, -, calls⟩ := claim (.ofNanos 10000000) (scrolling [0, 9, 18, 27, 36])
    { tab := ⟨7⟩ } slowTab (scrollAt 0) (scrollAt 36) [scrollAt 9, scrollAt 18, scrollAt 27]
    (by decide) (by simp) (reachable_scrolling _) (get?_scrolling _) rfl rfl ⟨rfl, rfl⟩
    slowTab.content.takes ⟨by decide, by decide, by decide⟩ (awaits_scrolling _)
  have four : (wheelCalls ⟨7⟩ ((scrolling [0, 9, 18, 27, 36]).start .checked).trace).length = 4 :=
    rfl
  simp only [calls, List.length_map, List.length_append, List.length_cons, List.length_nil] at four
  omega

end Host

end TabHost
