import TabHost.Proofs.Host.Settling

/-!
# The order of the tabs does not matter

Where no task is due, all tabs dispatch the pointer input that they kept back. They do so in some
order, which nothing fixes: the tabs of a run until idle may be visited in any order, in each
round in another one (`Host.LoopsAnyhow`).

The content of a tab cannot tell what the clock shows. So it takes the same time for what its
tab kept back, and makes the same of it, at whatever time that is done (`Stage.Drains`,
`Tab.Flushes`). All that another tab does to it meanwhile is to move the clock on, and so two
tabs may go in either order (`Host.alike_swap`), and any number of them in any order
(`Host.alike_flushTabs`). Only which of them went first can be told from the calls of all tabs
together (`Outcome.Alike`).
-/

set_option linter.unusedSectionVars false

namespace TabHost

variable {σ : Type} [Content σ]

/-! ## Outcomes that are alike -/

/-- Two outcomes that differ at most in the order in which calls of different tabs came. -/
structure Outcome.Alike {α : Type} (o o' : Outcome Effect α) : Prop where
  state : o.state = o'.state
  fault : o.fault = o'.fault
  calls : ∀ tab, callsOf tab o.trace = callsOf tab o'.trace
  outgoing : o.outgoing = o'.outgoing
  own : o.trace.filterMap Effect.own? = o'.trace.filterMap Effect.own?

namespace Outcome.Alike

variable {α β : Type} {o o' o'' : Outcome Effect α}

theorem refl (o : Outcome Effect α) : o.Alike o := ⟨rfl, rfl, fun _ => rfl, rfl, rfl⟩

theorem symm (h : o.Alike o') : o'.Alike o :=
  ⟨h.state.symm, h.fault.symm, fun tab => (h.calls tab).symm, h.outgoing.symm, h.own.symm⟩

theorem trans (h : o.Alike o') (h' : o'.Alike o'') : o.Alike o'' :=
  ⟨h.state.trans h'.state, h.fault.trans h'.fault,
    fun tab => (h.calls tab).trans (h'.calls tab), h.outgoing.trans h'.outgoing,
    h.own.trans h'.own⟩

theorem map (h : o.Alike o') (f : α → β) : (o.map f).Alike (o'.map f) :=
  ⟨congrArg f h.state, h.fault, h.calls, h.outgoing, h.own⟩

theorem andThen {f g : α → Outcome Effect α} (h : o.Alike o')
    (hf : o.fault = none → (f o.state).Alike (g o.state)) :
    (o.andThen f).Alike (o'.andThen g) := by
  cases ho : o.fault with
  | some e =>
    rw [Outcome.andThen_of_fault ho, Outcome.andThen_of_fault (h.fault.symm.trans ho)]
    exact h
  | none =>
    have hf := hf ho
    have ho' := h.fault.symm.trans ho
    constructor
    · rw [Outcome.state_andThen ho, Outcome.state_andThen ho', ← h.state, hf.state]
    · rw [Outcome.fault_andThen ho, Outcome.fault_andThen ho', ← h.state, hf.fault]
    · intro tab
      rw [Outcome.trace_andThen ho, Outcome.trace_andThen ho', callsOf_append, callsOf_append,
        h.calls, ← h.state, hf.calls]
    · have first := h.outgoing
      have second := hf.outgoing
      unfold Outcome.outgoing at *
      rw [Outcome.trace_andThen ho, Outcome.trace_andThen ho', List.filterMap_append,
        List.filterMap_append, first, ← h.state, second]
    · rw [Outcome.trace_andThen ho, Outcome.trace_andThen ho', List.filterMap_append,
        List.filterMap_append, h.own, ← h.state, hf.own]

end Outcome.Alike

/-! ## What a tab kept back takes its time -/

/-- Whatever the clock shows, content takes so much time for at most so many events of a queue,
and leaves the rest of it. Where the clock has no such time, it overflows. -/
structure Stage.Drains (n : Nat) (c : σ) (queue : List PointerEvent) (time : Nat) (c' : σ)
    (rest : List PointerEvent) (calls : List Call) : Prop where
  ends : ∀ clock clock' : Duration, clock'.nanos = clock.nanos + time →
    drainWithin n { content := c, clock := clock, queue := queue } =
      { state := { content := c', clock := clock', queue := rest }, trace := calls }
  late : ∀ clock : Duration, Duration.limit < clock.nanos + time →
    (drainWithin n { content := c, clock := clock, queue := queue }).fault =
      some .durationOverflow

namespace Stage

variable {n : Nat} {c : σ} {queue : List PointerEvent}

/-- What dispatches nothing takes no time. -/
theorem Drains.of_ok
    (h : ∀ clock, drainWithin n { content := c, clock := clock, queue := queue } =
      .ok { content := c, clock := clock, queue := queue }) :
    Drains n c queue 0 c queue [] := by
  refine ⟨fun clock clock' same => ?_, fun clock late => ?_⟩
  · obtain rfl : clock' = clock := Duration.ext_nanos same
    exact h clock'
  · exact absurd clock.within (Nat.not_le.mpr late)

theorem exists_drains (n : Nat) (c : σ) (queue : List PointerEvent) :
    ∃ time c' rest calls, Drains n c queue time c' rest calls := by
  induction n generalizing c queue with
  | zero => exact ⟨0, c, queue, [], .of_ok fun _ => rfl⟩
  | succ n ih =>
    cases queue with
    | nil => exact ⟨0, c, [], [], .of_ok fun _ => rfl⟩
    | cons e queue =>
      obtain ⟨time, c', rest, calls, drains⟩ :=
        ih (Content.pointer e c).content (queue ++ (Content.pointer e c).pushed)
      refine ⟨(Content.pointer e c).cost.nanos + time, c', rest, .pointer e :: calls, ?_, ?_⟩
      · intro clock clock' same
        have fits : clock.nanos + (Content.pointer e c).cost.nanos ≤ Duration.limit := by
          have within := clock'.within
          omega
        have moved : clock.add? (Content.pointer e c).cost = some ⟨_, fits⟩ :=
          Duration.add?_eq_some_iff.mpr rfl
        rw [drainWithin]
        dsimp only
        rw [pointer, perform, moved]
        dsimp only
        rw [Outcome.emit_andThen, drains.ends _ clock' (same.trans (Nat.add_assoc _ _ _).symm)]
      · intro clock late
        rw [drainWithin]
        dsimp only
        rw [pointer, perform]
        cases moved : clock.add? (Content.pointer e c).cost with
        | none => rfl
        | some mid =>
          have sum := Duration.add?_eq_some_iff.mp moved
          rw [Outcome.emit_andThen]
          exact drains.late mid (by omega)

end Stage

/-- Whatever the tabs share, a tab takes so much time to dispatch what it kept back, and is as
told then. Where the clock has no such time, it overflows. -/
structure Tab.Flushes (t : Tab σ) (time : Nat) (t' : Tab σ) (calls : List Call) : Prop where
  ends : ∀ (shared : Shared) (clock : Duration), clock.nanos = shared.clock.nanos + time →
    Seat.flushInput { tab := t, shared := shared } =
      { state := { tab := t', shared := { shared with clock := clock } }
        trace := calls.map (.call t.id) }
  late : ∀ shared : Shared, Duration.limit < shared.clock.nanos + time →
    (Seat.flushInput { tab := t, shared := shared }).fault = some .durationOverflow

namespace Tab

/-- What dispatches nothing takes no time. -/
theorem Flushes.of_ok {t : Tab σ}
    (h : ∀ shared, Seat.flushInput { tab := t, shared := shared } =
      .ok { tab := t, shared := shared }) : t.Flushes 0 t [] := by
  refine ⟨fun shared clock same => ?_, fun shared late => ?_⟩
  · obtain rfl : clock = shared.clock := Duration.ext_nanos same
    exact h shared
  · exact absurd shared.clock.within (Nat.not_le.mpr late)

theorem exists_flushes (t : Tab σ) : ∃ time t' calls, t.Flushes time t' calls := by
  cases live : t.state.isLive with
  | false =>
    exact ⟨0, t, [], .of_ok fun _ => by simp only [Seat.flushInput, live]; rfl⟩
  | true =>
    cases hb : t.moves with
    | none => exact ⟨0, t, [], .of_ok fun _ => by simp only [Seat.flushInput, live, hb]; rfl⟩
    | some b =>
      cases idle : b.isIdle with
      | true =>
        exact ⟨0, t, [], .of_ok fun _ => by simp only [Seat.flushInput, live, hb, idle]; rfl⟩
      | false =>
        have drained : ∀ shared, Seat.flushInput { tab := t, shared := shared } =
            Seat.drain (Seat.onMoves MoveBatch.flush { tab := t, shared := shared }) := by
          intro shared
          simp only [Seat.flushInput, live, hb, idle]
          rfl
        obtain ⟨time, c', rest, calls, drains⟩ := Stage.exists_drains
          (b.flush.queue.length + Content.backlog t.content) t.content b.flush.queue
        refine ⟨time, { t with content := c', moves := some { pending := [], queue := rest } },
          calls, fun shared clock same => ?_, fun shared late => ?_⟩
        · have stage : (Seat.onMoves MoveBatch.flush { tab := t, shared := shared }).stage.drain =
              { state := { content := c', clock := clock, queue := rest }, trace := calls } := by
            rw [← drains.ends shared.clock clock same]
            simp only [Seat.onMoves, Seat.stage, hb]
            rfl
          rw [drained, Seat.drain, Seat.perform, stage]
          simp only [Seat.onMoves, hb]
          rfl
        · have stage : (Seat.onMoves MoveBatch.flush
              { tab := t, shared := shared }).stage.drain.fault = some .durationOverflow := by
            rw [← drains.late shared.clock late]
            simp only [Seat.onMoves, Seat.stage, hb]
            rfl
          rw [drained]
          exact stage

end Tab

namespace Host

variable {build : Build} {h : Host σ} {tab other : TabId} {t t' : Tab σ} {time : Nat}
  {calls : List Call} {s : Nat × Host σ} {o o' : Outcome Effect (Nat × Host σ)}

/-! ## Two tabs -/

/-- The host with a tab as it is at some time. -/
def atTime (tab : TabId) (t : Tab σ) (clock : Duration) (h : Host σ) : Host σ :=
  { h with
    tabs := h.tabs.insert tab t
    shared := { h.shared with clock := clock } }

/-- Of two tabs it does not matter which was first, only what time it is in the end. -/
theorem atTime_comm (hne : other ≠ tab) (t u : Tab σ) (before before' clock : Duration)
    (h : Host σ) : (h.atTime tab t before).atTime other u clock =
      (h.atTime other u before').atTime tab t clock := by
  have tabs : (h.tabs.insert tab t).insert other u = (h.tabs.insert other u).insert tab t := by
    refine Table.ext_get? fun k => ?_
    by_cases hk : k = other
    · rw [hk, Table.get?_insert_self, Table.get?_insert_of_ne hne, Table.get?_insert_self]
    · rw [Table.get?_insert_of_ne hk]
      by_cases hk' : k = tab
      · rw [hk', Table.get?_insert_self, Table.get?_insert_self]
      · rw [Table.get?_insert_of_ne hk', Table.get?_insert_of_ne hk', Table.get?_insert_of_ne hk]
  exact congrArg (fun tabs => { h with
    tabs := tabs, shared := { h.shared with clock := clock } }) tabs

/-- The host once a tab dispatched what it kept back. -/
theorem onTab_flushes (ht : h.tabs.get? tab = some t) (id : t.id = tab)
    (hf : t.Flushes time t' calls) (clock : Duration)
    (same : clock.nanos = h.shared.clock.nanos + time) :
    h.onTab tab Seat.flushInput =
      { state := h.atTime tab t' clock, trace := calls.map (.call tab) } := by
  rw [onTab_of_some ht, hf.ends h.shared clock same, id]
  rfl

/-- Where a tab comes to the end of what it kept back, the clock has the time that it takes. -/
theorem exists_clock (ht : h.tabs.get? tab = some t) (hf : t.Flushes time t' calls)
    (fault : (h.onTab tab Seat.flushInput).fault = none) :
    ∃ clock : Duration, clock.nanos = h.shared.clock.nanos + time := by
  by_cases late : Duration.limit < h.shared.clock.nanos + time
  · rw [onTab_of_some ht] at fault
    cases fault.symm.trans (hf.late h.shared late)
  · exact ⟨⟨_, Nat.not_lt.mp late⟩, rfl⟩

/-- What does not look at the calls of a tab finds nothing in them. -/
theorem filterMap_calls {β : Type} {f : Effect → Option β} (hf : ∀ c, f (.call tab c) = none)
    (calls : List Call) : (calls.map (.call tab)).filterMap f = [] := by
  rw [List.filterMap_map]
  exact List.filterMap_eq_nil_iff.mpr fun c _ => hf c

/-- Calls of two tabs may come in either order. -/
theorem alike_calls {α : Type} (hne : other ≠ tab) (calls calls' : List Call) (s : α) :
    Outcome.Alike
      { state := s, trace := calls.map (.call tab) ++ calls'.map (.call other) }
      { state := s, trace := calls'.map (.call other) ++ calls.map (.call tab) } := by
  have swap : ∀ {β : Type} {f : Effect → Option β},
      (∀ c, f (.call tab c) = none) ∨ (∀ c, f (.call other c) = none) →
      (calls.map (Effect.call tab) ++ calls'.map (Effect.call other)).filterMap f =
        (calls'.map (Effect.call other) ++ calls.map (Effect.call tab)).filterMap f := by
    intro β f blind
    rw [List.filterMap_append, List.filterMap_append]
    rcases blind with blind | blind
    · rw [filterMap_calls blind, List.nil_append, List.append_nil]
    · rw [filterMap_calls blind, List.nil_append, List.append_nil]
  refine ⟨rfl, rfl, fun id => swap ?_, swap (.inl fun _ => rfl), swap (.inl fun _ => rfl)⟩
  by_cases hid : tab = id
  · exact .inr fun _ => if_neg (hid ▸ hne)
  · exact .inl fun _ => if_neg hid

/-- Two tabs may dispatch what they kept back in either order. -/
theorem alike_swap (hs : h.Sound)
    (fault : ((h.onTab tab Seat.flushInput).andThen (onTab other Seat.flushInput)).fault = none) :
    ((h.onTab tab Seat.flushInput).andThen (onTab other Seat.flushInput)).Alike
      ((h.onTab other Seat.flushInput).andThen (onTab tab Seat.flushInput)) := by
  by_cases hne : other = tab
  · rw [hne]
    exact .refl _
  obtain ⟨first, second⟩ := Outcome.fault_andThen_eq_none_iff.mp fault
  have spared := get?_onTab_of_ne hne Seat.flushInput h
  have spared' := get?_onTab_of_ne (Ne.symm hne) Seat.flushInput h
  cases ht : h.tabs.get? tab with
  | none =>
    rw [onTab_of_none ht, Outcome.ok_andThen, Outcome.andThen_congr (g := Outcome.ok)
      (onTab_of_none (spared'.trans ht) _), Outcome.andThen_ok]
    exact .refl _
  | some t =>
    cases hu : h.tabs.get? other with
    | none =>
      rw [onTab_of_none hu, Outcome.ok_andThen, Outcome.andThen_congr (g := Outcome.ok)
        (onTab_of_none (spared.trans hu) _), Outcome.andThen_ok]
      exact .refl _
    | some u =>
      obtain ⟨time, t', calls, flushes⟩ := t.exists_flushes
      obtain ⟨time', u', calls', flushes'⟩ := u.exists_flushes
      have here := spared.trans hu
      have here' := spared'.trans ht
      obtain ⟨clock, sum⟩ := exists_clock ht flushes first
      obtain ⟨ending, total⟩ := exists_clock here flushes' second
      have id := (hs tab t ht).2.id
      have id' := (hs other u hu).2.id
      rw [onTab_flushes ht id flushes clock sum] at here total ⊢
      have total : ending.nanos = clock.nanos + time' := total
      -- if the other tab goes first, the clock shows another time in between
      have between : h.shared.clock.nanos + time' ≤ Duration.limit := by
        have within := ending.within
        omega
      rw [onTab_flushes hu id' flushes' ⟨_, between⟩ rfl] at here' ⊢
      have total' : ending.nanos = h.shared.clock.nanos + time' + time := by omega
      have there := onTab_flushes here id' flushes' ending total
      have back := onTab_flushes here' id flushes ending total'
      have swap := alike_calls hne calls calls' ((h.atTime tab t' clock).atTime other u' ending)
      simp only [Outcome.andThen, there, back]
      rwa [atTime_comm hne t' u' clock ⟨_, between⟩] at swap ⊢

/-! ## All tabs -/

/-- The tabs may dispatch what they kept back in any order. -/
theorem alike_flushTabs {tabs tabs' : List TabId} (perm : tabs.Perm tabs') (hs : h.Sound)
    (fault : (h.flushTabs tabs).fault = none) :
    (h.flushTabs tabs).Alike (h.flushTabs tabs') := by
  induction perm generalizing h with
  | nil => exact .refl _
  | cons tab _ ih =>
    obtain ⟨here, later⟩ := Outcome.fault_andThen_eq_none_iff.mp fault
    exact (Outcome.Alike.refl _).andThen fun _ =>
      ih (sound_step .checked hs (.flush tab)) later
  | swap tab other rest =>
    simp only [flushTabs, ← Outcome.andThen_assoc] at fault ⊢
    have both := (Outcome.fault_andThen_eq_none_iff.mp fault).1
    exact (alike_swap hs both).andThen fun _ => .refl _
  | trans _ _ ih ih' =>
    have first := ih hs fault
    exact first.trans (ih' hs (first.fault.symm.trans fault))

/-- Nothing but the clock can stop the tabs. -/
theorem fault_flushTabs (tabs : List TabId) (h : Host σ) :
    (h.flushTabs tabs).fault = none ∨ (h.flushTabs tabs).fault = some .durationOverflow := by
  induction tabs generalizing h with
  | nil => exact .inl rfl
  | cons tab rest ih =>
    have here : (h.onTab tab Seat.flushInput).fault = none ∨
        (h.onTab tab Seat.flushInput).fault = some .durationOverflow := by
      cases ht : h.tabs.get? tab with
      | none =>
        rw [onTab_of_none ht]
        exact .inl rfl
      | some t =>
        obtain ⟨time, t', calls, flushes⟩ := t.exists_flushes
        rw [onTab_of_some ht]
        by_cases late : Duration.limit < h.shared.clock.nanos + time
        · exact .inr (flushes.late h.shared late)
        · have ends := flushes.ends h.shared ⟨_, Nat.not_lt.mp late⟩ rfl
          exact .inl (congrArg Outcome.fault ends)
    rcases here with none | overflow
    · rw [flushTabs, Outcome.fault_andThen none]
      exact ih _
    · rw [flushTabs, Outcome.andThen_of_fault overflow]
      exact .inr overflow

/-! ## Runs until idle -/

/-- A round of the loop in which the tabs are visited in some order, if no task is due. -/
def roundBy (build : Build) (tabs : List TabId) (s : Nat × Host σ) :
    Outcome Effect (Nat × Host σ) :=
  match s.2.takeTask? with
  | some (t, h) => (h.runTask build t).map fun h => (s.1 + 1, h)
  | none => (s.2.pullInbox.flushTabs tabs).map fun h => (s.1, h.pullInbox)

/-- Whether such a round is the last one. -/
def isLastBy (build : Build) (tabs : List TabId) (s : Nat × Host σ) : Bool :=
  s.2.takeTask?.isNone && (roundBy build tabs s).state.2.shared.queue.isIdle

/-- What the loop may come to, whatever the order in which the tabs are visited in each round. -/
inductive LoopsAnyhow (build : Build) : Nat × Host σ → Outcome Effect (Nat × Host σ) → Prop
  | breaks {s : Nat × Host σ} {tabs : List TabId} {f : Fault} (all : tabs.Perm s.2.tabs.keys)
      (fault : (roundBy build tabs s).fault = some f) :
      LoopsAnyhow build s (roundBy build tabs s)
  | ends {s : Nat × Host σ} {tabs : List TabId} (all : tabs.Perm s.2.tabs.keys)
      (fault : (roundBy build tabs s).fault = none) (last : isLastBy build tabs s = true) :
      LoopsAnyhow build s (roundBy build tabs s)
  | goesOn {s : Nat × Host σ} {tabs : List TabId} {o : Outcome Effect (Nat × Host σ)}
      (all : tabs.Perm s.2.tabs.keys) (fault : (roundBy build tabs s).fault = none)
      (more : isLastBy build tabs s = false)
      (rest : LoopsAnyhow build (roundBy build tabs s).state o) :
      LoopsAnyhow build s ((roundBy build tabs s).andThen fun _ => o)

/-- To visit the tabs in the order of their ids is one of the ways. -/
theorem Loops.anyhow (hl : Loops build s o) : LoopsAnyhow build s o := by
  induction hl with
  | breaks fault => exact .breaks (.refl _) fault
  | ends fault last => exact .ends (.refl _) fault last
  | goesOn fault more _ ih => exact .goesOn (.refl _) fault more ih

/-- Where no task is due, the tabs are visited once, and that is the last round. -/
theorem roundBy_of_idle (tabs : List TabId) (idle : s.2.takeTask? = none) :
    isLastBy build tabs s = true ∧
      roundBy build tabs s = (s.2.pullInbox.flushTabs tabs).map fun h => (s.1, h) := by
  obtain ⟨inbox, queue⟩ := idle_flushTabs tabs s.2.pullInbox
  have visit : roundBy build tabs s =
      (s.2.pullInbox.flushTabs tabs).map fun h => (s.1, h) := by
    rw [roundBy, idle]
    exact congrArg (fun h => { (s.2.pullInbox.flushTabs tabs).map fun h => (s.1, h) with
      state := (s.1, h) }) (pullInbox_of_nil _ inbox)
  refine ⟨?_, visit⟩
  rw [isLastBy, visit, idle, Outcome.state_map, queue, takeTask?_eq_none_iff.mp idle]
  rfl

theorem roundBy_of_due (tabs : List TabId) {task : Task} (due : s.2.takeTask? = some (task, h)) :
    isLastBy build tabs s = false ∧
      roundBy build tabs s = (h.runTask build task).map fun h => (s.1 + 1, h) := by
  rw [isLastBy, roundBy, due]
  exact ⟨rfl, rfl⟩

/-- Whatever the loop comes to, first all tasks are done, and then the tabs are visited once. -/
theorem LoopsAnyhow.runs (hl : LoopsAnyhow build s o) {n : Nat} (hs : s.2.Sound)
    (enough : s.2.work < n) :
    ∃ tabs : List TabId, tabs.Perm (runTasks build n s).state.2.tabs.keys ∧
      o = (runTasks build n s).andThen fun s => (s.2.flushTabs tabs).map fun h => (s.1, h) := by
  induction hl generalizing n with
  | @breaks s tabs f all fault =>
    cases n with
    | zero => exact absurd enough (Nat.not_lt_zero _)
    | succ n =>
      rw [runTasks]
      cases due : s.2.takeTask? with
      | none => exact ⟨tabs, all, (roundBy_of_idle tabs due).2⟩
      | some r =>
        rw [(roundBy_of_due tabs due).2] at fault ⊢
        dsimp only
        rw [Outcome.andThen_of_fault fault]
        exact ⟨_, .refl _, (Outcome.andThen_of_fault fault _).symm⟩
  | @ends s tabs all fault last =>
    cases n with
    | zero => exact absurd enough (Nat.not_lt_zero _)
    | succ n =>
      rw [runTasks]
      cases due : s.2.takeTask? with
      | none => exact ⟨tabs, all, (roundBy_of_idle tabs due).2⟩
      | some r => cases last.symm.trans (roundBy_of_due tabs due).1
  | @goesOn s tabs o all fault more rest ih =>
    cases n with
    | zero => exact absurd enough (Nat.not_lt_zero _)
    | succ n =>
      rw [runTasks]
      cases due : s.2.takeTask? with
      | none => cases more.symm.trans (roundBy_of_idle tabs due).1
      | some r =>
        obtain ⟨task, h⟩ := r
        have sound := sound_step build hs .runOne
        rw [step_runOne build due] at sound
        have less := Nat.lt_of_lt_of_le (work_runTask build hs due) (Nat.le_of_lt_succ enough)
        rw [(roundBy_of_due tabs due).2] at fault ih ⊢
        obtain ⟨visited, perm, same⟩ := ih sound less
        dsimp only
        refine ⟨visited, by rwa [Outcome.state_andThen fault], ?_⟩
        rw [same, Outcome.andThen_assoc]
        exact Outcome.andThen_congr rfl

/-- A run until idle comes to an end, and whatever the orders in which the tabs are visited
meanwhile, it comes to the same, unless the clock overflows: the same tasks are done, the tabs
with their content, the registry, the clock and all that is shared are the same in the end,
content of each tab was called for the same, and the same was sent. -/
theorem flush_order_irrelevant (hr : h.Reachable build) :
    LoopsAnyhow build (0, h) (h.runUntilIdle build) ∧
      ∀ o o', LoopsAnyhow build (0, h) o → LoopsAnyhow build (0, h) o' →
        o.fault ≠ some .durationOverflow → o.Alike o' := by
  have sound := hr.sound
  refine ⟨(loops_runUntilIdle build sound).anyhow, fun o o' hl hl' time => ?_⟩
  obtain ⟨tabs, perm, rfl⟩ := hl.runs sound (Nat.lt_succ_self _)
  obtain ⟨tabs', perm', rfl⟩ := hl'.runs sound (Nat.lt_succ_self _)
  refine (Outcome.Alike.refl _).andThen fun fault => Outcome.Alike.map ?_ _
  refine alike_flushTabs (perm.trans perm'.symm) (sound_runTasks sound fault) ?_
  rw [Outcome.fault_andThen fault] at time
  exact (fault_flushTabs _ _).resolve_right time

/-- Two tabs. The first one keeps a move back, its content takes 5 ns for each, and will push
another one; the second one is sent a move, for which its content takes 7 ns. -/
def twoKeepingBack : Host Headless :=
  ((new {} .zero {}).performs .checked
    [.event (.create { value := 7 } { cost := .ofNanos 5, reentrant := [.move (moveOf ⟨2⟩)] }),
      .event (.create { value := 8 } { cost := .ofNanos 7 }),
      .event (.post { tab := { value := 7 }, request := .pointerMove (moveOf ⟨1⟩) }),
      .event .runOne,
      .event (.post { tab := { value := 8 }, request := .pointerMove (moveOf ⟨1⟩) })]).state

/-- A run until idle of these tabs, the task first and then the tabs in some order. -/
def visiting (tabs : List TabId) : Outcome Effect (Nat × Host Headless) :=
  (roundBy .checked tabs (0, twoKeepingBack)).andThen (roundBy .checked tabs)

/-- Either tab may go first, as can be told from the calls. In the end it is the same time. -/
theorem flush_order_irrelevant_twoKeepingBack :
    (visiting [⟨7⟩, ⟨8⟩]).trace.filterMap Effect.called? = [⟨7⟩, ⟨7⟩, ⟨8⟩] ∧
    (visiting [⟨8⟩, ⟨7⟩]).trace.filterMap Effect.called? = [⟨8⟩, ⟨7⟩, ⟨7⟩] ∧
    (visiting [⟨7⟩, ⟨8⟩]).state.2.shared.clock = .ofNanos 17 ∧
    (visiting [⟨7⟩, ⟨8⟩]).Alike (visiting [⟨8⟩, ⟨7⟩]) := by
  have reached : twoKeepingBack.Reachable .checked := (Reachable.new {} .zero {}).performs (by rfl)
  have first : LoopsAnyhow .checked (0, twoKeepingBack) (visiting [⟨7⟩, ⟨8⟩]) :=
    .goesOn (.refl _) (by rfl) (by rfl) (.ends (.refl _) (by rfl) (by rfl))
  have second : LoopsAnyhow .checked (0, twoKeepingBack) (visiting [⟨8⟩, ⟨7⟩]) :=
    .goesOn (.swap _ _ []) (by rfl) (by rfl) (.ends (.swap _ _ []) (by rfl) (by rfl))
  have alike := (flush_order_irrelevant reached).2 _ _ first second (by decide)
  exact ⟨by rfl, by rfl, by rfl, alike⟩

end Host

end TabHost
