import TabHost.Proofs.Tab.Intervals

/-!
# Carrying out what was put off

A request for a render state that a prompt tab accepts is carried out at once, or else when the
last blocker goes away (`Tab.Carried`). Between the two it waits, and content is told nothing of
it (`Tab.Awaits`); once it is carried out, content is told nothing more of its rendering until a
newer request comes (`Tab.CarriedOut`).

The gate keeps of a request whether to render, and for which epoch, but not whether to force a
repaint. So what content is told by the time the tab is unblocked is what it would have been told
without blockers, unless the request forced a repaint, was put off, and finds content visible
over a link that is taken to be open (`Content.Swallows`): then it is told of the epoch only
(`Tab.newest_request_settles`).
-/

namespace TabHost

/-! ## What content is told of its rendering -/

/-- What content is told of its rendering. -/
def Call.rendering? : Call → Option Notice
  | .notice (.active _) => none
  | .notice .destroy => none
  | .notice n => some n
  | _ => none

/-- What the content of a tab is told of its rendering. -/
def renderingTold (tab : TabId) (trace : List Effect) : List Notice :=
  (callsOf tab trace).filterMap Call.rendering?

theorem renderingTold_append (tab : TabId) (a b : List Effect) :
    renderingTold tab (a ++ b) = renderingTold tab a ++ renderingTold tab b := by
  rw [renderingTold, callsOf_append, List.filterMap_append]
  rfl

theorem renderingTold_eq_nil {tab : TabId} {trace : List Effect}
    (h : ∀ c ∈ callsOf tab trace, c.isInput = true) : renderingTold tab trace = [] := by
  refine List.filterMap_eq_nil_iff.mpr fun c hc => ?_
  cases c with
  | notice n => exact absurd (h _ hc) (by simp [Call.isInput])
  | _ => rfl

namespace Content

variable {σ : Type} [Content σ] {ipcOpen force : Bool} {r : PendingRender} {c : σ}

/-- Content after it has been told of the activation that was put off, if one was. -/
def activated (active : Option Bool) (c : σ) : σ :=
  match active with
  | none => c
  | some a => Content.notify (.active a) c

theorem filterMap_rendering (ipcOpen force : Bool) (r : PendingRender) (c : σ) :
    ((rendering ipcOpen force r c).map Call.notice).filterMap Call.rendering? =
      rendering ipcOpen force r c := by
  simp only [rendering]
  split
  · split
    · rfl
    · split <;> rfl
  · rfl

theorem filterMap_catchUp (ipcOpen : Bool) (active : Option Bool) (render : Option PendingRender)
    (c : σ) : ((catchUp ipcOpen { active, render } c).map Call.notice).filterMap Call.rendering? =
      match render with
      | none => []
      | some r => rendering ipcOpen false r (activated active c) := by
  cases render with
  | none => cases active <;> rfl
  | some r =>
    cases active with
    | none => exact filterMap_rendering ipcOpen false r c
    | some a => exact filterMap_rendering ipcOpen false r (Content.notify (.active a) c)

/-- A forced repaint is swallowed if it was put off and finds content visible, over a link that
is taken to be open. -/
structure Swallows (ipcOpen force putOff : Bool) (r : PendingRender) (c : σ) : Prop where
  forced : force = true
  enabled : r.enabled = true
  putOff : putOff = true
  ipcOpen : ipcOpen = true
  visible : Content.isVisible (Content.notify (.epoch r.epoch) c) = true

/-- Content is shown and paints once, now or later. -/
def Repaints (epoch : Epoch) (told : List Notice) : Prop :=
  ∃ paint, (paint = .paintNow ∨ paint = .schedulePaint) ∧
    told = [.epoch epoch, .makeVisible, paint]

/-- A forced repaint is one. -/
theorem repaints_rendering (ipcOpen : Bool) (c : σ) (enabled : r.enabled = true) :
    Repaints r.epoch (rendering ipcOpen true r c) := by
  simp only [rendering, enabled, if_true, Bool.not_true, Bool.false_and, Bool.false_eq_true,
    if_false]
  refine ⟨_, ?_, rfl⟩
  split
  · exact Or.inl rfl
  · exact Or.inr rfl

/-- What is left of a swallowed repaint. -/
theorem Swallows.rendering {putOff : Bool} (h : Swallows ipcOpen force putOff r c) :
    rendering ipcOpen false r c = [.epoch r.epoch] := by
  simp only [Content.rendering, h.enabled, h.ipcOpen, h.visible, Bool.not_false, Bool.and_self,
    if_true]

/-- Unless it is swallowed, a request that was put off comes to the same as one that was not. -/
theorem rendering_of_not_swallows {putOff : Bool} (h : ¬Swallows ipcOpen force putOff r c) :
    rendering ipcOpen (force && !putOff) r c = rendering ipcOpen force r c := by
  cases putOff with
  | false => rw [Bool.not_false, Bool.and_true]
  | true =>
    cases force with
    | false => rfl
    | true =>
      simp only [rendering, Bool.not_true, Bool.and_false, Bool.not_false, Bool.true_and,
        Bool.false_and, Bool.false_eq_true, if_false]
      split
      · next enabled =>
        have outdated : (ipcOpen && Content.isVisible (Content.notify (.epoch r.epoch) c)) =
            false := by
          by_contra upToDate
          rw [Bool.not_eq_false, Bool.and_eq_true] at upToDate
          exact h ⟨rfl, enabled, rfl, upToDate.1, upToDate.2⟩
        rw [outdated]
        rfl
      · rfl

/-- What a request comes to, of which content is told these things. -/
structure Settles (ipcOpen force putOff : Bool) (r : PendingRender) (c : σ)
    (told : List Notice) : Prop where
  /-- Content is brought into the render state, and a repaint is only forced at once. -/
  rendered : told = rendering ipcOpen (force && !putOff) r c
  /-- Without blockers it would have come to the same, unless a repaint is swallowed. -/
  alike : told = rendering ipcOpen force r c ↔ ¬Swallows ipcOpen force putOff r c
  /-- A forced repaint is made once, unless it is swallowed. -/
  repaints : force = true → r.enabled = true →
    (Repaints r.epoch told ↔ ¬Swallows ipcOpen force putOff r c)
  /-- If it is, content is told of the epoch only. -/
  swallowed : Swallows ipcOpen force putOff r c → told = [.epoch r.epoch]

theorem settles_rendering (ipcOpen force putOff : Bool) (r : PendingRender) (c : σ) :
    Settles ipcOpen force putOff r c (rendering ipcOpen (force && !putOff) r c) := by
  have left : Swallows ipcOpen force putOff r c →
      rendering ipcOpen (force && !putOff) r c = [.epoch r.epoch] := fun h => by
    rw [h.putOff, Bool.not_true, Bool.and_false]
    exact h.rendering
  have made : Swallows ipcOpen force putOff r c → Repaints r.epoch (rendering ipcOpen force r c) :=
    fun h => by
      rw [h.forced]
      exact repaints_rendering ipcOpen c h.enabled
  have more : ¬Repaints r.epoch [.epoch r.epoch] := by
    rintro ⟨paint, -, h⟩
    cases h
  refine ⟨rfl, ⟨fun same h => ?_, rendering_of_not_swallows⟩, fun forced enabled => ?_, left⟩
  · refine more ?_
    rw [← left h, same]
    exact made h
  · refine ⟨fun repaints h => more (left h ▸ repaints), fun h => ?_⟩
    rw [rendering_of_not_swallows h, forced]
    exact repaints_rendering ipcOpen c enabled

end Content

variable {σ : Type} [Content σ]

/-! ## Waiting for the gate -/

namespace Tab

/-- A request for a render state waits until the tab is unblocked. -/
structure Awaits (r : PendingRender) (u : Tab σ) : Prop where
  blocked : u.gate.blockers ≠ 0
  kept : u.gate.render = some r
  epoch : u.epoch = r.epoch

/-- A request for a render state has been carried out. -/
structure CarriedOut (r : PendingRender) (u : Tab σ) : Prop where
  done : u.gate.render = none
  epoch : u.epoch = r.epoch

end Tab

namespace Seat

variable {build : Build} {s : Seat σ} {o : Outcome Effect (Seat σ)} {d : Demand} {tab : TabId}
  {r : PendingRender}

/-- A request that waits goes on waiting, unless the last blocker goes away. -/
theorem Heeds.awaits (heeds : Heeds build s d o) (h : s.tab.Awaits r)
    (old : ∀ r', d.render? = some r' → ¬r.epoch < r'.epoch) (id : s.tab.id = tab) :
    o.state.tab.Awaits r ∧ renderingTold tab o.trace = [] ∨
    d = .release ∧ s.tab.gate.blockers = 1 ∧ o.state.tab.CarriedOut r ∧
      renderingTold tab o.trace = Content.rendering s.tab.ipcOpen false r
        (Content.activated s.tab.gate.active s.tab.content) := by
  cases heeds with
  | activated free => exact absurd free h.blocked
  | activeKept => exact Or.inl ⟨⟨h.blocked, h.kept, h.epoch⟩, rfl⟩
  | stale => exact Or.inl ⟨h, rfl⟩
  | rendered _ free => exact absurd free h.blocked
  | renderKept new =>
    rw [h.epoch] at new
    exact absurd new (old _ rfl)
  | blocked count =>
    refine Or.inl ⟨⟨fun hzero => ?_, h.kept, h.epoch⟩, rfl⟩
    rw [show s.tab.gate.blockers + 1 = 0 from hzero] at count
    cases count
  | unheld free => exact absurd free h.blocked
  | released _ more => exact Or.inl ⟨⟨more, h.kept, h.epoch⟩, rfl⟩
  | replayed last =>
    obtain ⟨-, ⟨content, htab⟩, -⟩ := replay_cases s.tab.gate.active s.tab.gate.render
      (s.setGate {})
    refine Or.inr ⟨rfl, last, ?_, ?_⟩
    · rw [htab]
      exact ⟨rfl, h.epoch⟩
    · rw [renderingTold, callsOf_replay (s := s.setGate {}) _ id, h.kept]
      exact Content.filterMap_catchUp s.tab.ipcOpen s.tab.gate.active (some r) s.tab.content

/-- Once a request has been carried out, content is told nothing more of its rendering. -/
theorem Heeds.carriedOut (heeds : Heeds build s d o) (h : s.tab.CarriedOut r)
    (old : ∀ r', d.render? = some r' → ¬r.epoch < r'.epoch) (id : s.tab.id = tab) :
    o.state.tab.CarriedOut r ∧ renderingTold tab o.trace = [] := by
  cases heeds with
  | activated =>
    refine ⟨⟨h.done, h.epoch⟩, ?_⟩
    rw [renderingTold, callsOf_notify _ id]
    rfl
  | rendered new =>
    rw [h.epoch] at new
    exact absurd new (old _ rfl)
  | renderKept new =>
    rw [h.epoch] at new
    exact absurd new (old _ rfl)
  | unheld =>
    rw [Outcome.state_violation, Outcome.trace_violation]
    exact ⟨h, rfl⟩
  | replayed last =>
    obtain ⟨-, ⟨content, htab⟩, -⟩ := replay_cases s.tab.gate.active s.tab.gate.render
      (s.setGate {})
    refine ⟨?_, ?_⟩
    · rw [htab]
      exact ⟨rfl, h.epoch⟩
    · rw [renderingTold, callsOf_replay (s := s.setGate {}) _ id, h.done]
      exact Content.filterMap_catchUp s.tab.ipcOpen s.tab.gate.active none s.tab.content
  | _ => exact ⟨⟨h.done, h.epoch⟩, rfl⟩

/-- A live tab takes its link to be open or not as before, if it is not torn down. -/
theorem ipcOpen_act (build : Build) {a : Act} (hl : s.tab.state.isLive = true)
    (ha : a.tearsDown = false) : (act build a s).state.tab.ipcOpen = s.tab.ipcOpen := by
  cases hh : a.isHangUp with
  | false => exact congrArg Standing.ipcOpen (works_act build hl ha hh).standing
  | true =>
    cases a with
    | hangUp =>
      rw [act, hangUp]
      split <;> rfl
    | _ => cases hh

end Seat

/-! ## When a request is carried out -/

namespace Tab

variable {build : Build} {t u : Tab σ} {x y : Turn} {xs : List Turn} {force : Bool}
  {r : PendingRender} {c : σ}

/-- A tab goes about a turn without a newer request than a certain one. -/
structure Goes (build : Build) (r : PendingRender) (y : Turn) (u : Tab σ) : Prop where
  live : u.state.isLive = true
  spared : y.act.tearsDown = false
  heeds : ∀ d, u.demand? y.act = some d →
    Seat.Heeds build (u.seat y) d (Seat.act build y.act (u.seat y))
  old : ∀ d r', u.demand? y.act = some d → d.render? = some r' → ¬r.epoch < r'.epoch

/-- Without a demand, neither the gate nor content hears of a turn. -/
theorem Goes.unheard (goes : Goes build r y u) (hd : u.demand? y.act = none) :
    (u.turn build y).state.gate = u.gate ∧ (u.turn build y).state.epoch = u.epoch ∧
      renderingTold u.id (u.turn build y).trace = [] := by
  have disregards := Seat.disregards_act build (s := u.seat y) goes.live goes.spared hd
  exact ⟨disregards.gate, disregards.epoch, renderingTold_eq_nil disregards.calls⟩

theorem Awaits.turn (h : u.Awaits r) (goes : Goes build r y u) :
    (u.turn build y).state.Awaits r ∧ renderingTold u.id (u.turn build y).trace = [] ∨
    u.demand? y.act = some .release ∧ u.gate.blockers = 1 ∧ (u.turn build y).state.CarriedOut r ∧
      renderingTold u.id (u.turn build y).trace =
        Content.rendering u.ipcOpen false r (Content.activated u.gate.active u.content) := by
  cases hd : u.demand? y.act with
  | none =>
    obtain ⟨gate, epoch, silent⟩ := goes.unheard hd
    refine Or.inl ⟨⟨?_, ?_, epoch.trans h.epoch⟩, silent⟩
    · rw [gate]
      exact h.blocked
    · rw [gate]
      exact h.kept
  | some d =>
    rcases (goes.heeds d hd).awaits h (fun r' hr' => goes.old d r' hd hr') rfl with
      waits | ⟨rfl, last, settled, told⟩
    · exact Or.inl waits
    · exact Or.inr ⟨rfl, last, settled, told⟩

theorem CarriedOut.turn (h : u.CarriedOut r) (goes : Goes build r y u) :
    (u.turn build y).state.CarriedOut r ∧ renderingTold u.id (u.turn build y).trace = [] := by
  cases hd : u.demand? y.act with
  | none =>
    obtain ⟨gate, epoch, silent⟩ := goes.unheard hd
    refine ⟨⟨?_, epoch.trans h.epoch⟩, silent⟩
    rw [gate]
    exact h.done
  | some d => exact (goes.heeds d hd).carriedOut h (fun r' hr' => goes.old d r' hd hr') rfl

/-- When a request that a tab accepts in a turn is carried out, if some turns follow, and what
content is like then. -/
inductive Carried (build : Build) (t : Tab σ) (x : Turn) (xs : List Turn) : σ → Prop
  /-- Nothing blocks it. -/
  | atOnce (free : t.gate.blockers = 0) : Carried build t x xs t.content
  /-- It waits, and then for the first time the last blocker goes away. -/
  | due (mid : List Turn) (y : Turn) (later : List Turn) (split : xs = mid ++ y :: later)
      (putOff : t.gate.blockers ≠ 0)
      (blocked : ∀ p, p <+: mid → (t.turns build (x :: p)).state.gate.blockers ≠ 0)
      (last : (t.turns build (x :: mid)).state.gate.blockers = 1)
      (release : (t.turns build (x :: mid)).state.demand? y.act = some .release) :
      Carried build t x xs
        (Content.activated (t.turns build (x :: mid)).state.gate.active
          (t.turns build (x :: mid)).state.content)

theorem Carried.concat (h : Carried build t x xs c) (y : Turn) :
    Carried build t x (xs ++ [y]) c := by
  cases h with
  | atOnce free => exact .atOnce free
  | due mid z later split putOff blocked last release =>
    refine .due mid z (later ++ [y]) ?_ putOff blocked last release
    rw [split, List.append_assoc]
    rfl

/-- What has become of a request since it was accepted. -/
inductive Stands (build : Build) (t : Tab σ) (force : Bool) (r : PendingRender) (x : Turn)
    (xs : List Turn) : Prop
  /-- It waits, and has waited all the time. -/
  | waits (awaits : (t.turns build (x :: xs)).state.Awaits r) (putOff : t.gate.blockers ≠ 0)
      (blocked : ∀ p, p <+: xs → (t.turns build (x :: p)).state.gate.blockers ≠ 0)
      (told : renderingTold t.id (t.turns build (x :: xs)).trace = [])
  /-- It has been carried out. -/
  | carried {c : σ} (settled : (t.turns build (x :: xs)).state.CarriedOut r)
      (carried : Carried build t x xs c)
      (told : renderingTold t.id (t.turns build (x :: xs)).trace =
        Content.rendering t.ipcOpen (force && !t.gate.isBlocked) r c)

/-- A request that is accepted is put off or carried out at once. -/
theorem stands_accepted (prompt : t.Prompt) (asks : t.demand? x.act = some (.render force r))
    (new : t.epoch < r.epoch) : Stands build t force r x [] := by
  have turned : t.turns build [x] =
      (Seat.requestRender r.enabled force r.epoch (t.seat x)).map Seat.tab := by
    rw [turns_singleton, turn, Seat.act_of_demand? (s := t.seat x) build prompt.live asks]
    rfl
  have heeds := Seat.heeds_requestRender build force r (t.seat x)
  generalize Seat.requestRender r.enabled force r.epoch (t.seat x) = o at turned heeds
  cases heeds with
  | stale old => exact absurd new old
  | renderKept _ blocked =>
    refine .waits ?_ blocked (fun p hp => ?_) ?_
    · rw [turned]
      exact ⟨blocked, rfl, rfl⟩
    · rw [List.prefix_nil.mp hp, turned]
      exact blocked
    · rw [turned]
      rfl
  | rendered _ free =>
    obtain ⟨-, content, htab⟩ := Seat.applyRender_spec r.enabled force r.epoch
      { t.seat x with tab := { (t.seat x).tab with epoch := r.epoch } }
    have unblocked : t.gate.isBlocked = false := Gate.isBlocked_eq_false_iff.mpr free
    refine .carried ?_ (.atOnce free) ?_
    · rw [turned, Outcome.state_map, htab]
      exact ⟨congrArg Gate.render (prompt.idle free), rfl⟩
    · rw [turned, Outcome.trace_map, unblocked, Bool.not_false, Bool.and_true]
      exact (congrArg (List.filterMap Call.rendering?)
        (Seat.callsOf_applyRender r.enabled force r.epoch rfl)).trans
        (Content.filterMap_rendering t.ipcOpen force r t.content)

/-- In one more turn without a newer request, one that waits goes on waiting or is carried out,
and one that has been carried out stays so. -/
theorem Stands.concat (h : Stands build t force r x xs)
    (fault : (t.turns build (x :: xs)).fault = none)
    (id : (t.turns build (x :: xs)).state.id = t.id)
    (ipcOpen : (t.turns build (x :: xs)).state.ipcOpen = t.ipcOpen)
    (goes : Goes build r y (t.turns build (x :: xs)).state) :
    Stands build t force r x (xs ++ [y]) := by
  have turned : t.turns build (x :: (xs ++ [y])) =
      (t.turns build (x :: xs)).andThen (turns build [y]) := by
    rw [← List.cons_append, turns_append]
  have state : (t.turns build (x :: (xs ++ [y]))).state =
      ((t.turns build (x :: xs)).state.turn build y).state := by
    rw [turned, Outcome.state_andThen fault, turns_singleton]
  have told : renderingTold t.id (t.turns build (x :: (xs ++ [y]))).trace =
      renderingTold t.id (t.turns build (x :: xs)).trace ++
        renderingTold (t.turns build (x :: xs)).state.id
          ((t.turns build (x :: xs)).state.turn build y).trace := by
    rw [turned, Outcome.trace_andThen fault, turns_singleton, renderingTold_append, id]
  cases h with
  | waits awaits putOff blocked silent =>
    rcases awaits.turn goes with ⟨awaits', silent'⟩ | ⟨release, last, settled, rendered⟩
    · refine .waits (state ▸ awaits') putOff (fun p hp => ?_) ?_
      · rcases List.prefix_concat_iff.mp hp with rfl | hp
        · rw [state]
          exact awaits'.blocked
        · exact blocked p hp
      · rw [told, silent, silent']
        rfl
    · have isBlocked : t.gate.isBlocked = true := by
        cases hb : t.gate.isBlocked with
        | true => rfl
        | false => exact absurd (Gate.isBlocked_eq_false_iff.mp hb) putOff
      refine .carried (state ▸ settled) (.due xs y [] rfl putOff blocked last release) ?_
      rw [told, silent, rendered, isBlocked, ipcOpen, Bool.not_true, Bool.and_false]
      rfl
  | carried settled carried rendered =>
    obtain ⟨settled', silent⟩ := settled.turn goes
    refine .carried (state ▸ settled') (carried.concat y) ?_
    rw [told, rendered, silent, List.append_nil]

/-- A live tab takes its link to be open or not as before, as long as it is not torn down. -/
theorem ipcOpen_turns (build : Build) {xs : List Turn} {t : Tab σ} (prompt : t.Prompt)
    (spared : ∀ y ∈ xs, y.act.tearsDown = false) (fault : (t.turns build xs).fault = none)
    (room : Demand.InRoom t.gate.blockers.toNat (t.demands build xs)) :
    (t.turns build xs).state.ipcOpen = t.ipcOpen := by
  induction xs using List.reverseRecOn with
  | nil => rfl
  | append_singleton xs x ih =>
    have before := fault_of_append fault
    rw [demands_append build before] at room
    have spared' : ∀ y ∈ xs, y.act.tearsDown = false :=
      fun y hy => spared y (List.mem_append_left _ hy)
    obtain ⟨-, live, -⟩ := gated_turns build prompt spared' before room.of_append
    rw [turns_append, Outcome.state_andThen before, turns_singleton]
    exact (Seat.ipcOpen_act build (s := (t.turns build xs).state.seat x) live
      (spared x (by simp))).trans (ih spared' before room.of_append)

/-- By the time a tab is unblocked, the newest request that it accepted has been carried out
once, either as it came or as the last blocker went away, and content is told of its rendering
since what the request comes to. It comes to the same as without blockers unless it forced a
repaint that is swallowed. -/
theorem newest_request_settles (build : Build) {t : Tab σ} {x : Turn} {xs : List Turn}
    {force : Bool} {r : PendingRender} (prompt : t.Prompt)
    (spared : ∀ y ∈ x :: xs, y.act.tearsDown = false)
    (fault : (t.turns build (x :: xs)).fault = none)
    (room : Demand.InRoom t.gate.blockers.toNat (t.demands build (x :: xs)))
    (asks : t.demand? x.act = some (.render force r)) (new : t.epoch < r.epoch)
    (newest : ∀ r' ∈ Demand.renders (t.demands build (x :: xs)), ¬r.epoch < r'.epoch)
    (unblocked : (t.turns build (x :: xs)).state.gate.blockers = 0) :
    ∃ c, Carried build t x xs c ∧
      Content.Settles t.ipcOpen force t.gate.isBlocked r c
        (renderingTold t.id (t.turns build (x :: xs)).trace) := by
  have stands : Stands build t force r x xs := by
    clear unblocked
    induction xs using List.reverseRecOn with
    | nil => exact stands_accepted prompt asks new
    | append_singleton xs y ih =>
      rw [← List.cons_append] at fault room newest spared
      have before := fault_of_append fault
      rw [demands_append build before, demands_singleton] at room newest
      have spared' : ∀ z ∈ x :: xs, z.act.tearsDown = false :=
        fun z hz => spared z (List.mem_append_left _ hz)
      have older : ∀ r' ∈ Demand.renders (t.demands build (x :: xs)), ¬r.epoch < r'.epoch := by
        intro r' hr'
        rw [Demand.renders_append] at newest
        exact newest r' (List.mem_append_left _ hr')
      obtain ⟨-, live, id, gated⟩ := gated_turns build prompt spared' before room.of_append
      refine (ih spared' before room.of_append older).concat before id
        (ipcOpen_turns build prompt spared' before room.of_append)
        ⟨live, spared y (by simp), fun d hd => ?_, fun d r' hd hr' => ?_⟩
      · rw [hd] at room
        exact gated.heeds_turn live hd room
      · refine newest r' ?_
        rw [hd, Option.toList_some, Demand.renders_concat, hr']
        simp
  cases stands with
  | waits awaits => exact absurd unblocked awaits.blocked
  | carried settled carried told => exact ⟨_, carried, told ▸ Content.settles_rendering _ _ _ _ _⟩

/-- A live tab over an open link, with content that is visible or not. -/
def shownOrNot (visible : Bool) : Tab Headless :=
  (create { value := 7 } {} { visible := visible }).connected { tab := { value := 7 } }

/-- A forced repaint is asked for. -/
def forceRepaint : Turn :=
  alone (.request { tab := { value := 7 }, request := .setRenderState true true { value := 1 } })

/-- The tab while there is a blocker. -/
def heldUp (visible : Bool) : Tab Headless :=
  ((shownOrNot visible).turn .checked (alone .addBlocker)).state

/-- Content that is hidden repaints when the blocker is gone. -/
theorem newest_request_settles_hidden :
    Content.Repaints ⟨1⟩ (renderingTold ⟨7⟩
      ((heldUp false).turns .checked [forceRepaint, alone .removeBlocker]).trace) := by
  have prompt : (heldUp false).Prompt :=
    ⟨⟨fun _ => ⟨rfl, rfl⟩, fun h => by cases h⟩, rfl, fun h => by cases h⟩
  have asked : (heldUp false).demands .checked [forceRepaint, alone .removeBlocker] =
      [.render true { enabled := true, epoch := ⟨1⟩ }, .release] := by rfl
  have room : Demand.InRoom (heldUp false).gate.blockers.toNat
      ((heldUp false).demands .checked [forceRepaint, alone .removeBlocker]) := by
    rw [asked]
    decide
  have newest : ∀ r' ∈ Demand.renders
      ((heldUp false).demands .checked [forceRepaint, alone .removeBlocker]),
      ¬(⟨1⟩ : Epoch) < r'.epoch := by
    rw [asked]
    decide
  obtain ⟨c, carried, settles⟩ := newest_request_settles .checked prompt (by decide) (by rfl) room
    (x := forceRepaint) rfl (by decide) newest (by rfl)
  refine (settles.repaints rfl rfl).mpr fun swallowed => ?_
  cases carried with
  | atOnce free => cases free
  | due mid y later split =>
    obtain rfl : mid = [] := by
      cases mid with
      | nil => rfl
      | cons z mid => simp at split
    cases swallowed.visible

/-- Visible content is told nothing but the epoch when the blocker is gone; without a blocker it
would have repainted. -/
theorem forced_repaint_swallowed :
    renderingTold ⟨7⟩ ((shownOrNot true).turns .checked
        [alone .addBlocker, forceRepaint, alone .removeBlocker]).trace = [.epoch ⟨1⟩] ∧
      ¬Content.Repaints ⟨1⟩ (renderingTold ⟨7⟩ ((shownOrNot true).turns .checked
        [alone .addBlocker, forceRepaint, alone .removeBlocker]).trace) ∧
      Content.Repaints ⟨1⟩ (renderingTold ⟨7⟩
        ((shownOrNot true).turns .checked [forceRepaint]).trace) := by
  have told : renderingTold ⟨7⟩ ((shownOrNot true).turns .checked
      [alone .addBlocker, forceRepaint, alone .removeBlocker]).trace = [.epoch ⟨1⟩] := by rfl
  refine ⟨told, ?_, .paintNow, Or.inl rfl, by rfl⟩
  rw [told]
  rintro ⟨paint, -, h⟩
  cases h

end Tab

end TabHost
