import TabHost.Proofs.Tab.Intervals

/-!
# Epochs that content is told of

An epoch moves on when a request is accepted, but content is told of it only when it is brought
into the render state, which may be put off. What is put off is always of the epoch that the
tab is at (`Tab.Observes`), so the epochs that content is told of ascend, and when there are no
blockers, the last of them is the one that the tab is at (`Tab.observed_epochs_ascend`).
-/

set_option linter.unusedSectionVars false

namespace TabHost

/-! ## Observed epochs -/

/-- The epoch that content is told of. -/
def Notice.epoch? : Notice → Option Epoch
  | .epoch e => some e
  | _ => none

/-- The epoch that content is told of in a call. -/
def Call.epoch? : Call → Option Epoch
  | .notice n => n.epoch?
  | _ => none

/-- The epochs that the content of a tab is told of. -/
def observed (tab : TabId) (trace : List Effect) : List Epoch :=
  (callsOf tab trace).filterMap Call.epoch?

theorem observed_append (tab : TabId) (a b : List Effect) :
    observed tab (a ++ b) = observed tab a ++ observed tab b := by
  simp [observed, callsOf_append]

variable {σ : Type} [Content σ]

/-- What is brought into a render state is told of one epoch. -/
theorem epochs_rendering (ipcOpen force : Bool) (r : PendingRender) (c : σ) :
    (Content.rendering ipcOpen force r c).filterMap Notice.epoch? = [r.epoch] := by
  unfold Content.rendering
  dsimp only
  refine congrArg (r.epoch :: ·) ?_
  split
  · split
    · rfl
    · split <;> rfl
  · rfl

/-- What catches up is told of the epoch of the render state that was put off, if any. -/
theorem epochs_catchUp (ipcOpen : Bool) (due : GateReplay) (c : σ) :
    (Content.catchUp ipcOpen due c).filterMap Notice.epoch? =
      due.render.toList.map PendingRender.epoch := by
  obtain ⟨active, render⟩ := due
  cases active with
  | none =>
    cases render with
    | none => rfl
    | some r => exact epochs_rendering ipcOpen false r c
  | some a =>
    cases render with
    | none => rfl
    | some r => exact epochs_rendering ipcOpen false r (Content.notify (.active a) c)

namespace Seat

variable {s : Seat σ} {o : Outcome Effect (Seat σ)} {tab : TabId} {build : Build} {d : Demand}

theorem observed_of_calls {ns : List Notice} (h : callsOf tab o.trace = ns.map .notice) :
    observed tab o.trace = ns.filterMap Notice.epoch? := by
  rw [observed, h, List.filterMap_map]
  rfl

theorem observed_applyRender (enabled force : Bool) (epoch : Epoch) (h : s.tab.id = tab) :
    observed tab (applyRender enabled force epoch s).trace = [epoch] := by
  rw [observed_of_calls (callsOf_applyRender enabled force epoch h), epochs_rendering]

theorem observed_replay (due : GateReplay) (h : s.tab.id = tab) :
    observed tab (replay due s).trace = due.render.toList.map PendingRender.epoch := by
  rw [observed_of_calls (callsOf_replay due h), epochs_catchUp]

theorem Disregards.observed (h : Disregards s o) : observed s.tab.id o.trace = [] := by
  refine List.filterMap_eq_nil_iff.mpr fun c hc => ?_
  have input := h.calls c hc
  cases c with
  | notice n => cases input
  | _ => rfl

end Seat

/-! ## Observing -/

namespace Tab

/-- What content of a tab was told of the epochs while the tab went from one state to another.
What is put off is of the epoch that the tab is at; if nothing is put off, that is the epoch
that content was told of last. -/
structure Observes (t u : Tab σ) (told : List Epoch) : Prop where
  ascends : told.Pairwise (· < ·)
  reached : ∀ e ∈ told, ¬u.epoch < e
  held : ∀ r, u.gate.render = some r → r.epoch = u.epoch ∧ ∀ e ∈ told, e < u.epoch
  last : u.gate.render = none →
    told.getLast? = some u.epoch ∨ t.gate.render = none ∧ u.epoch = t.epoch

variable {t u v : Tab σ} {told : List Epoch} {build : Build} {d : Demand} {xs : List Turn}

theorem Observes.of_same (h : Observes t u told) (render : v.gate.render = u.gate.render)
    (epoch : v.epoch = u.epoch) : Observes t v told := by
  refine ⟨h.ascends, ?_, ?_, ?_⟩
  · rw [epoch]
    exact h.reached
  · rw [render, epoch]
    exact h.held
  · rw [render, epoch]
    exact h.last

/-- Content is told of an epoch that is newer than all before, and that the tab is at then. -/
theorem Observes.tell {e : Epoch} (h : told.Pairwise (· < ·)) (newer : ∀ e' ∈ told, e' < e)
    (gate : v.gate = {}) (epoch : v.epoch = e) : Observes t v (told ++ [e]) := by
  refine ⟨?_, fun e' he' => ?_, fun r hr => ?_, fun _ => Or.inl ?_⟩
  · exact List.pairwise_append.mpr
      ⟨h, List.pairwise_singleton .., fun e' he' e'' he'' =>
        List.mem_singleton.mp he'' ▸ newer e' he'⟩
  · rw [epoch]
    rcases List.mem_append.mp he' with he' | he'
    · exact fun hlt => Epoch.not_lt_self e (Epoch.lt_trans hlt (newer e' he'))
    · rw [List.mem_singleton.mp he']
      exact Epoch.not_lt_self e
  · rw [gate] at hr
    cases hr
  · rw [List.getLast?_concat, epoch]

/-- What a demand does to what content was told of the epochs. -/
theorem Observes.heeds {s : Seat σ} {o : Outcome Effect (Seat σ)} (h : Observes t s.tab told)
    (idle : s.tab.gate.blockers = 0 → s.tab.gate = {}) (heeds : Seat.Heeds build s d o) :
    Observes t o.state.tab (told ++ observed s.tab.id o.trace) := by
  have newer : ∀ {e : Epoch}, s.tab.epoch < e → ∀ e' ∈ told, e' < e := fun hlt e' he' =>
    Epoch.lt_of_not_lt_of_lt (h.reached e' he') hlt
  cases heeds with
  | @activated a =>
    have silent : observed s.tab.id (Seat.notify (.active a) s).trace = [] :=
      congrArg (·.filterMap Call.epoch?) (Seat.callsOf_notify (.active a) rfl)
    rw [silent, List.append_nil]
    exact h.of_same rfl rfl
  | @rendered force r new free =>
    obtain ⟨-, content, htab⟩ := Seat.applyRender_spec r.enabled force r.epoch
      { s with tab := { s.tab with epoch := r.epoch } }
    have one : observed s.tab.id (Seat.applyRender r.enabled force r.epoch
        { s with tab := { s.tab with epoch := r.epoch } }).trace = [r.epoch] :=
      Seat.observed_applyRender r.enabled force r.epoch rfl
    rw [one, htab]
    exact .tell h.ascends (newer new) (idle free) rfl
  | @renderKept force r new =>
    rw [show observed s.tab.id _ = [] from rfl, List.append_nil]
    refine ⟨h.ascends, fun e he hlt => ?_, fun r' hr' => ?_, fun hnone => ?_⟩
    · exact Epoch.not_lt_self e (Epoch.lt_trans (newer new e he) hlt)
    · obtain rfl : r = r' := Option.some.inj hr'
      exact ⟨rfl, newer new⟩
    · cases hnone
  | unheld =>
    rw [Outcome.trace_violation, Outcome.state_violation]
    exact (List.append_nil told).symm ▸ h
  | replayed last =>
    obtain ⟨-, ⟨content, htab⟩, -⟩ := Seat.replay_cases s.tab.gate.active s.tab.gate.render
      (s.setGate {})
    have caughtUp : observed s.tab.id (Seat.replay
        { active := s.tab.gate.active, render := s.tab.gate.render } (s.setGate {})).trace =
        s.tab.gate.render.toList.map PendingRender.epoch := Seat.observed_replay _ rfl
    rw [caughtUp, htab]
    cases hr : s.tab.gate.render with
    | none =>
      rw [Option.toList_none, List.map_nil, List.append_nil]
      exact h.of_same hr.symm rfl
    | some r =>
      obtain ⟨epoch, below⟩ := h.held r hr
      rw [← epoch] at below
      exact .tell h.ascends below rfl epoch.symm
  | _ => exact (List.append_nil told).symm ▸ h.of_same rfl rfl

theorem Observes.turn (build : Build) {x : Turn} {ds : List Demand} (h : Observes t u told)
    (gated : Gated t u ds) (live : u.state.isLive = true) (hx : x.act.tearsDown = false)
    (room : Demand.InRoom t.gate.blockers.toNat (ds ++ (u.demand? x.act).toList)) :
    Observes t (u.turn build x).state (told ++ observed u.id (u.turn build x).trace) := by
  cases hd : u.demand? x.act with
  | none =>
    have disregards := Seat.disregards_act build (s := u.seat x) live hx hd
    rw [show observed u.id (u.turn build x).trace = [] from disregards.observed, List.append_nil]
    exact h.of_same (congrArg Gate.render disregards.gate) disregards.epoch
  | some d =>
    rw [hd] at room
    exact Observes.heeds (s := u.seat x) h gated.idle (gated.heeds_turn live hd room)

theorem observes_turns (build : Build) {t : Tab σ} (prompt : t.Prompt)
    (held : ∀ r, t.gate.render = some r → r.epoch = t.epoch)
    (spared : ∀ x ∈ xs, x.act.tearsDown = false) (fault : (t.turns build xs).fault = none)
    (room : Demand.InRoom t.gate.blockers.toNat (t.demands build xs)) :
    Observes t (t.turns build xs).state (observed t.id (t.turns build xs).trace) := by
  induction xs using List.reverseRecOn with
  | nil =>
    have untold : ∀ e, e ∉ observed t.id (t.turns build []).trace := fun _ => List.not_mem_nil
    exact ⟨.nil, fun e he => absurd he (untold e),
      fun r hr => ⟨held r hr, fun e he => absurd he (untold e)⟩, fun hnone => Or.inr ⟨hnone, rfl⟩⟩
  | append_singleton xs x ih =>
    have before := fault_of_append fault
    rw [demands_append build before, demands_singleton] at room
    rw [turns_append, Outcome.state_andThen before, Outcome.trace_andThen before,
      observed_append, turns_singleton]
    have spared' : ∀ y ∈ xs, y.act.tearsDown = false :=
      fun y hy => spared y (List.mem_append_left _ hy)
    obtain ⟨-, live, id, gated⟩ := gated_turns build prompt spared' before room.of_append
    have observes := ih spared' before room.of_append
    have next := observes.turn build gated live (spared x (by simp)) room
    rw [id] at next
    exact next

/-- A tab is at the newest of the epoch that it was at and of those that it was asked for. -/
theorem Gated.newest {ds : List Demand} (h : Gated t u ds) :
    (∀ r ∈ Demand.renders ds, ¬u.epoch < r.epoch) ∧
      (u.epoch = t.epoch ∨ ∃ r ∈ Demand.renders ds, r.epoch = u.epoch) := by
  have reached : ∀ r ∈ Demand.renders ds, ¬u.epoch < r.epoch := fun r hr hlt =>
    Epoch.not_lt_self r.epoch (((h.newer r).mp hlt).2 r hr)
  refine ⟨reached, ?_⟩
  let base : PendingRender := { enabled := true, epoch := t.epoch }
  have newest := isNewest_foldl base (Demand.renders ds)
  generalize (Demand.renders ds).foldl PendingRender.newer base = last at newest
  -- what the tab is at is no news to itself, so it is not newer than the newest
  have bounded : ¬last.epoch < u.epoch := by
    intro hlt
    have least : ¬last.epoch < t.epoch := by
      rcases newest.among with rfl | ⟨-, hbase⟩
      · exact Epoch.not_lt_self t.epoch
      · exact fun h' => Epoch.not_lt_self t.epoch (Epoch.lt_trans hbase h')
    refine Epoch.not_lt_self u.epoch ((h.newer { enabled := true, epoch := u.epoch }).mpr ⟨?_, ?_⟩)
    · exact Epoch.lt_of_not_lt_of_lt least hlt
    · exact fun r hr => Epoch.lt_of_not_lt_of_lt (newest.newest r hr) hlt
  rcases newest.among with rfl | ⟨hm, -⟩
  · refine Or.inl (Epoch.eq_of_not_lt (fun hlt => ?_) bounded)
    exact Epoch.not_lt_self t.epoch ((h.newer base).mp hlt).1
  · exact Or.inr ⟨last, hm, Epoch.eq_of_not_lt bounded (reached last hm)⟩

/-- Whatever was done to a prompt tab short of tearing it down, the epochs that its content was
told of ascend, and what is put off is of the epoch that the tab is at. None that it was asked
for is newer; once a request was accepted, the epoch is that of a request, and without
blockers it is the last that content was told of. -/
theorem observed_epochs_ascend (build : Build) {t : Tab σ} {xs : List Turn} (prompt : t.Prompt)
    (held : ∀ r, t.gate.render = some r → r.epoch = t.epoch)
    (spared : ∀ x ∈ xs, x.act.tearsDown = false) (fault : (t.turns build xs).fault = none)
    (room : Demand.InRoom t.gate.blockers.toNat (t.demands build xs)) :
    (observed t.id (t.turns build xs).trace).Pairwise (· < ·) ∧
    (∀ r, (t.turns build xs).state.gate.render = some r →
      r.epoch = (t.turns build xs).state.epoch) ∧
    (∀ r ∈ Demand.renders (t.demands build xs), ¬(t.turns build xs).state.epoch < r.epoch) ∧
    (newsAmong t.epoch [] (Demand.renders (t.demands build xs)) ≠ [] →
      ∃ r ∈ Demand.renders (t.demands build xs), r.epoch = (t.turns build xs).state.epoch) ∧
    ((t.turns build xs).state.gate.blockers = 0 →
      newsAmong t.epoch [] (Demand.renders (t.demands build xs)) ≠ [] ∨ t.gate.render ≠ none →
      (observed t.id (t.turns build xs).trace).getLast? =
        some (t.turns build xs).state.epoch) := by
  obtain ⟨-, -, -, gated⟩ := gated_turns build prompt spared fault room
  have observes := observes_turns build prompt held spared fault room
  obtain ⟨reached, newest⟩ := gated.newest
  -- an accepted request is newer than the epoch at the start
  have advanced : newsAmong t.epoch [] (Demand.renders (t.demands build xs)) ≠ [] →
      (t.turns build xs).state.epoch ≠ t.epoch := by
    intro news same
    obtain ⟨r, hr⟩ := List.exists_mem_of_ne_nil _ news
    obtain ⟨hm, hlt⟩ := mem_newsAmong hr
    rw [← same] at hlt
    exact reached r hm hlt
  refine ⟨observes.ascends, fun r hr => (observes.held r hr).1, reached,
    fun news => newest.resolve_left (advanced news), fun free accepted => ?_⟩
  have nothing : (t.turns build xs).state.gate.render = none := by rw [gated.idle free]
  refine (observes.last nothing).resolve_right fun ⟨hnone, same⟩ => ?_
  rcases accepted with news | started
  · exact advanced news same
  · exact started hnone

/-- A request before there are blockers, and then some that are put off until there are none. -/
def renderedAndPutOff : List Turn :=
  putOffTwice.asks (.setRenderState true false { value := 1 }) ::
    (putOffTwice ++ [alone .removeBlocker])

/-- Content is told of the epochs of two of the four requests, and the tab is at the last. -/
theorem observed_epochs_ascend_background :
    observed ⟨7⟩ (background.turns .checked renderedAndPutOff).trace = [⟨1⟩, ⟨5⟩] ∧
    (observed ⟨7⟩ (background.turns .checked renderedAndPutOff).trace).Pairwise (· < ·) ∧
    (observed ⟨7⟩ (background.turns .checked renderedAndPutOff).trace).getLast? =
      some (background.turns .checked renderedAndPutOff).state.epoch := by
  have spared : ∀ x ∈ renderedAndPutOff, x.act.tearsDown = false := by decide
  have fault : (background.turns .checked renderedAndPutOff).fault = none := by rfl
  have demanded : background.demands .checked renderedAndPutOff =
      .render false { enabled := true, epoch := { value := 1 } } ::
        (demandedTwice ++ [.release]) := by rfl
  have room : Demand.InRoom background.gate.blockers.toNat
      (background.demands .checked renderedAndPutOff) := by
    rw [demanded]
    decide
  have prompt : background.Prompt := prompt_connected _ _ _ _
  have ascends := observed_epochs_ascend .checked prompt (fun r hr => by cases hr) spared fault room
  refine ⟨by rfl, ascends.1, ascends.2.2.2.2 (by rfl) (Or.inl ?_)⟩
  rw [demanded]
  decide

end Tab

end TabHost
