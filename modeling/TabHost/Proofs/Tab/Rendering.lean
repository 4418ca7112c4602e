import TabHost.Proofs.Content.Visibility
import TabHost.Proofs.Tab.Turn

/-!
# What rendering comes to

What the content of a tab is told of its visibility (`shown`) and how its surface is marked
go together. Bringing a tab into a render state either finds it there and leaves the surface
alone, or marks the surface just as content is told (`Seat.renders_applyRender`).

A request is stale, or put off, or carried out at once (`Seat.requestRender_cases`), and the
last blocker that goes away carries out what was put off (`Seat.removeBlocker_cases`). None of
this concerns anything of the tab but its content, its epoch and its gate. What content is told
of it all is `Content.rendering` and `Content.catchUp`.
-/

set_option linter.unusedSectionVars false

namespace TabHost

/-! ## What content is told of its visibility -/

/-- What the content of a tab is told of its visibility. -/
def shown (tab : TabId) (trace : List Effect) : List Bool :=
  (callsOf tab trace).filterMap Call.shows?

theorem shown_append (tab : TabId) (a b : List Effect) :
    shown tab (a ++ b) = shown tab a ++ shown tab b := by
  rw [shown, callsOf_append, List.filterMap_append]
  rfl

theorem shown_eq_nil {tab : TabId} {trace : List Effect}
    (h : ∀ c ∈ callsOf tab trace, c.shows? = none) : shown tab trace = [] :=
  List.filterMap_eq_nil_iff.mpr h

namespace Seat

variable {σ : Type} [Content σ] {s s' : Seat σ} {o : Outcome Effect (Seat σ)}

theorem shown_notify (n : Notice) (s : Seat σ) :
    shown s.tab.id (notify n s).trace = (Call.shows? (.notice n)).toList := by
  have told : callsOf s.tab.id (notify n s).trace = [.notice n] :=
    callsOf_map_call s.tab.id [.notice n]
  rw [shown, told]
  cases h : Call.shows? (.notice n) <;> simp [h]

/-! ## Marking a surface -/

theorem markSurface_of_none (h : s.tab.surface = none) (visible : Bool) :
    s.markSurface visible = s := by
  simp only [markSurface, h]

theorem surfaces_markSurface {surface : SurfaceId} (h : s.tab.surface = some surface)
    (visible : Bool) : (s.markSurface visible).shared.surfaces =
      s.shared.surfaces.setVisible surface visible := by
  simp only [markSurface, h, onSurfaces]

/-- Only the surface of the tab matters. -/
theorem shared_markSurface_congr (surface : s'.tab.surface = s.tab.surface)
    (shared : s'.shared = s.shared) (visible : Bool) :
    (s'.markSurface visible).shared = (s.markSurface visible).shared := by
  unfold markSurface
  rw [surface]
  split
  · exact shared
  · simp only [onSurfaces, shared]

/-! ## Render states -/

/-- What comes of bringing a tab into a render state. -/
inductive Renders (enabled : Bool) (s : Seat σ) (o : Outcome Effect (Seat σ)) : Prop
  /-- Content is visible and stays so; the surface is left alone. -/
  | stands (upToDate : enabled = true) (visible : Content.isVisible o.state.tab.content = true)
      (shared : o.state.shared = s.shared) (told : shown s.tab.id o.trace = [])
  /-- The surface is marked, and content is told. -/
  | changes (shared : o.state.shared = (s.markSurface enabled).shared)
      (told : shown s.tab.id o.trace = [enabled])

/-- What is told before, if not of visibility, does not matter. -/
theorem Renders.after_notify {enabled : Bool} {n : Notice} {f : Operation σ}
    (hn : Call.shows? (.notice n) = none)
    (h : Renders enabled (notify n s).state (f (notify n s).state)) :
    Renders enabled s ((notify n s).andThen f) := by
  have told : ∀ {v}, shown s.tab.id (f (notify n s).state).trace = v →
      shown s.tab.id ((notify n s).andThen f).trace = v := by
    intro v hv
    rw [Outcome.trace_andThen rfl, shown_append, shown_notify, hn, hv]
    rfl
  cases h with
  | stands upToDate visible shared silent => exact .stands upToDate visible shared (told silent)
  | changes shared silent =>
    have same : ((notify n s).state.markSurface enabled).shared =
        (s.markSurface enabled).shared := by
      apply shared_markSurface_congr
      · rfl
      · rfl
    exact .changes (shared.trans same) (told silent)

/-- Changing the gate and the epoch does not matter. -/
theorem Renders.of_same {enabled : Bool} (h : Renders enabled s' o) (id : s'.tab.id = s.tab.id)
    (surface : s'.tab.surface = s.tab.surface) (shared : s'.shared = s.shared) :
    Renders enabled s o := by
  cases h with
  | stands upToDate visible same told =>
    rw [id] at told
    exact .stands upToDate visible (same.trans shared) told
  | changes same told =>
    rw [id] at told
    exact .changes (same.trans (shared_markSurface_congr surface shared enabled)) told

/-- A surface is marked, and content is told of it and of something else. -/
theorem renders_notify_notify (enabled : Bool) {m n : Notice}
    (hm : Call.shows? (.notice m) = some enabled) (hn : Call.shows? (.notice n) = none)
    (s : Seat σ) :
    Renders enabled s ((notify m (s.markSurface enabled)).andThen (notify n)) := by
  have silent : shown (s.markSurface enabled).tab.id
      ((notify m (s.markSurface enabled)).andThen (notify n)).trace = [enabled] := by
    rw [Outcome.trace_andThen rfl, shown_append, shown_notify, hm]
    rw [show (s.markSurface enabled).tab.id =
      (notify m (s.markSurface enabled)).state.tab.id from rfl, shown_notify, hn]
    rfl
  rw [tab_markSurface] at silent
  exact .changes rfl silent

theorem renders_enable (s : Seat σ) : Renders true s (enable s) := by
  unfold enable
  by_cases h : Content.isSafeToRunScript (Content.notify .makeVisible s.tab.content) = true
  · have now : (notify .makeVisible (s.markSurface true)).andThen paint =
        (notify .makeVisible (s.markSurface true)).andThen (notify .paintNow) := by
      simp [notify, paint, Outcome.emit_andThen, h]
    rw [now]
    exact renders_notify_notify true rfl rfl s
  · have later : (notify .makeVisible (s.markSurface true)).andThen paint =
        (notify .makeVisible (s.markSurface true)).andThen (notify .schedulePaint) := by
      simp [notify, paint, Outcome.emit_andThen, h]
    rw [later]
    exact renders_notify_notify true rfl rfl s

/-- A tab that is brought into a render state is marked as it is told, unless there is
nothing to do. -/
theorem renders_applyRender (enabled force : Bool) (epoch : Epoch) (s : Seat σ) :
    Renders enabled s (applyRender enabled force epoch s) := by
  refine .after_notify rfl ?_
  split
  · next he =>
    subst he
    split
    · next hup =>
      have visible : Content.isVisible (notify (.epoch epoch) s).state.tab.content = true := by
        simp only [isUpToDate, Bool.and_eq_true] at hup
        exact hup.2
      rcases send_cases (r := .acknowledge epoch) (by simp) (notify (.epoch epoch) s).state
        with h | ⟨l, -, -, -, h⟩
      · rw [h]
        exact .stands rfl visible rfl rfl
      · rw [h]
        exact .stands rfl visible rfl rfl
    · exact renders_enable _
  · next he =>
    rw [Bool.not_eq_true] at he
    subst he
    exact renders_notify_notify false rfl rfl _

/-- Content that shows what it is told is visible after an operation as it was told last. -/
theorem Notifies.isVisible [Content.ShowsAsTold σ] (h : Notifies s o) :
    Content.isVisible o.state.tab.content =
      (shown s.tab.id o.trace).getLast?.getD (Content.isVisible s.tab.content) := by
  rw [h.content, Content.isVisible_after]
  rfl

/-- Content that shows what it is told is in the render state that it is brought into. -/
theorem Renders.isVisible [Content.ShowsAsTold σ] {enabled : Bool} (h : Renders enabled s o)
    (notifies : Notifies s o) : Content.isVisible o.state.tab.content = enabled := by
  cases h with
  | stands upToDate visible => rw [visible, upToDate]
  | changes _ told =>
    rw [notifies.isVisible, told]
    rfl

/-- Bringing a tab into a render state concerns its content only, and comes to its end. -/
theorem applyRender_spec (enabled force : Bool) (epoch : Epoch) (s : Seat σ) :
    (applyRender enabled force epoch s).fault = none ∧ ∃ content,
      (applyRender enabled force epoch s).state.tab = { s.tab with content := content } := by
  rw [applyRender, notify, Outcome.emit_andThen]
  dsimp only
  split
  · split
    · rcases send_cases (r := .acknowledge epoch) (by simp)
        { s with tab := { s.tab with content := Content.notify (.epoch epoch) s.tab.content } }
        with h | ⟨l, -, -, -, h⟩
      · rw [h]
        exact ⟨rfl, _, rfl⟩
      · rw [h]
        exact ⟨rfl, _, rfl⟩
    · rw [enable, notify, Outcome.emit_andThen, paint, tab_markSurface]
      exact ⟨rfl, _, rfl⟩
  · rw [disable, notify, Outcome.emit_andThen, tab_markSurface]
    exact ⟨rfl, _, rfl⟩

/-! ## Requests -/

/-- A request for a render state is stale, or put off, or carried out at once. -/
theorem requestRender_cases (enabled force : Bool) (epoch : Epoch) (s : Seat σ) :
    ¬s.tab.epoch < epoch ∧ requestRender enabled force epoch s = .ok s ∨
    s.tab.epoch < epoch ∧ s.tab.gate.isBlocked = true ∧
      requestRender enabled force epoch s =
        .ok { s with
          tab :=
            { s.tab with
              epoch := epoch
              gate := { s.tab.gate with render := some { enabled, epoch } } } } ∨
    s.tab.epoch < epoch ∧ s.tab.gate.isBlocked = false ∧
      requestRender enabled force epoch s =
        applyRender enabled force epoch { s with tab := { s.tab with epoch := epoch } } := by
  unfold requestRender Gate.captureRender?
  by_cases hnew : s.tab.epoch < epoch
  · rw [Epoch.accept?_eq_some_iff.mpr ⟨hnew, rfl⟩]
    cases hb : s.tab.gate.isBlocked with
    | true =>
      refine Or.inr (Or.inl ⟨hnew, rfl, ?_⟩)
      simp [hb, setGate]
    | false =>
      refine Or.inr (Or.inr ⟨hnew, rfl, ?_⟩)
      simp [hb]
  · exact Or.inl ⟨hnew, by simp [Epoch.accept?, hnew]⟩

/-- What was put off is carried out, as far as there is anything. -/
theorem replay_cases (active : Option Bool) (render : Option PendingRender) (s : Seat σ) :
    (replay { active, render } s).fault = none ∧
    (∃ content, (replay { active, render } s).state.tab = { s.tab with content := content }) ∧
    (render = none ∧ (replay { active, render } s).state.shared = s.shared ∧
        shown s.tab.id (replay { active, render } s).trace = [] ∨
      ∃ r, render = some r ∧ Renders r.enabled s (replay { active, render } s)) := by
  -- telling content of its activation does not matter to what comes then
  have told : ∀ a, (replay { active := some a, render } s) =
      (notify (.active a) s).andThen (replayRender render) := fun _ => rfl
  cases render with
  | none =>
    cases active with
    | none => exact ⟨rfl, ⟨_, rfl⟩, Or.inl ⟨rfl, rfl, rfl⟩⟩
    | some a =>
      refine ⟨rfl, ⟨_, rfl⟩, Or.inl ⟨rfl, rfl, ?_⟩⟩
      rw [told, Outcome.trace_andThen rfl, shown_append, shown_notify]
      rfl
  | some r =>
    cases active with
    | none =>
      obtain ⟨hf, ht⟩ := applyRender_spec r.enabled false r.epoch s
      exact ⟨hf, ht, Or.inr ⟨r, rfl, renders_applyRender r.enabled false r.epoch s⟩⟩
    | some a =>
      obtain ⟨hf, content, ht⟩ :=
        applyRender_spec r.enabled false r.epoch (notify (.active a) s).state
      rw [told]
      refine ⟨?_, ⟨content, ?_⟩, Or.inr ⟨r, rfl, .after_notify rfl ?_⟩⟩
      · rw [Outcome.fault_andThen rfl]
        exact hf
      · rw [Outcome.state_andThen rfl]
        exact ht
      · exact renders_applyRender r.enabled false r.epoch _

/-- One blocker less leaves the gate open, blocked still, or carries out what was put off. -/
theorem removeBlocker_cases (build : Build) (hl : s.tab.state.isLive = true) :
    s.tab.gate.blockers = 0 ∧ (removeBlocker build s).state = s ∧
        (removeBlocker build s).trace = [] ∨
    1 < s.tab.gate.blockers ∧ removeBlocker build s =
      .ok (s.setGate { s.tab.gate with blockers := s.tab.gate.blockers - 1 }) ∨
    s.tab.gate.blockers = 1 ∧ removeBlocker build s =
      replay { active := s.tab.gate.active, render := s.tab.gate.render } (s.setGate {}) := by
  unfold removeBlocker Gate.removeBlocker?
  rw [if_pos hl]
  by_cases hzero : s.tab.gate.blockers = 0
  · exact Or.inl ⟨hzero, by simp [hzero], by simp [hzero]⟩
  · by_cases hone : s.tab.gate.blockers = 1
    · exact Or.inr (Or.inr ⟨hone, by simp [hone]⟩)
    · refine Or.inr (Or.inl ⟨?_, by simp [hzero, hone]⟩)
      rw [UInt32.lt_iff_toNat_lt]
      have hzero' : s.tab.gate.blockers.toNat ≠ 0 := fun h => hzero (UInt32.toNat.inj h)
      have hone' : s.tab.gate.blockers.toNat ≠ 1 := fun h => hone (UInt32.toNat.inj h)
      show 1 < s.tab.gate.blockers.toNat
      omega

end Seat

/-! ## The calls of content -/

variable {σ : Type} [Content σ]

/-- What content is told when it is brought into a render state: of the epoch, and of what it
has to do. If it is visible and is to stay so, over an open link, the rest is a matter between
the tab and its parent. -/
def Content.rendering (ipcOpen force : Bool) (r : PendingRender) (c : σ) : List Notice :=
  let told := Content.notify (.epoch r.epoch) c
  .epoch r.epoch ::
    if r.enabled then
      if !force && ipcOpen && Content.isVisible told then []
      else
        [.makeVisible,
          if Content.isSafeToRunScript (Content.notify .makeVisible told) then .paintNow
          else .schedulePaint]
    else [.makeHidden, .clearCachedResources]

/-- What content is told when it catches up on what was put off: of the activation, and then
of the render state. -/
def Content.catchUp (ipcOpen : Bool) (due : GateReplay) (c : σ) : List Notice :=
  match due.active, due.render with
  | none, none => []
  | some a, none => [.active a]
  | none, some r => Content.rendering ipcOpen false r c
  | some a, some r =>
    .active a :: Content.rendering ipcOpen false r (Content.notify (.active a) c)

namespace Seat

variable {s : Seat σ} {tab : TabId}

theorem callsOf_notify (n : Notice) (h : s.tab.id = tab) :
    callsOf tab (notify n s).trace = [.notice n] := by
  rw [← h]
  exact callsOf_map_call s.tab.id [.notice n]

theorem callsOf_notify_andThen (n : Notice) (h : s.tab.id = tab) (f : Operation σ) :
    callsOf tab ((notify n s).andThen f).trace =
      .notice n :: callsOf tab (f (notify n s).state).trace := by
  rw [Outcome.trace_andThen rfl, callsOf_append, callsOf_notify n h]
  rfl

theorem callsOf_disable (h : s.tab.id = tab) :
    callsOf tab (disable s).trace =
      [.notice .makeHidden, .notice .clearCachedResources] := by
  have same : (s.markSurface false).tab.id = tab := by rw [tab_markSurface, h]
  have later : (notify .makeHidden (s.markSurface false)).state.tab.id = tab := same
  rw [disable, callsOf_notify_andThen _ same, callsOf_notify _ later]

theorem callsOf_enable (h : s.tab.id = tab) :
    callsOf tab (enable s).trace =
      [.notice .makeVisible, .notice
        (if Content.isSafeToRunScript (Content.notify .makeVisible s.tab.content) then .paintNow
          else .schedulePaint)] := by
  have same : (s.markSurface true).tab.id = tab := by rw [tab_markSurface, h]
  have later : (notify .makeVisible (s.markSurface true)).state.tab.id = tab := same
  have content : (notify .makeVisible (s.markSurface true)).state.tab.content =
      Content.notify .makeVisible s.tab.content := by
    show Content.notify _ (s.markSurface true).tab.content = _
    rw [tab_markSurface]
  rw [enable, callsOf_notify_andThen _ same, paint, callsOf_notify _ later, content]

/-- What content is told in fact when its tab is brought into a render state. -/
theorem callsOf_applyRender (enabled force : Bool) (epoch : Epoch) (h : s.tab.id = tab) :
    callsOf tab (applyRender enabled force epoch s).trace =
      (Content.rendering s.tab.ipcOpen force { enabled, epoch } s.tab.content).map .notice := by
  have later : (notify (.epoch epoch) s).state.tab.id = tab := h
  rw [applyRender, callsOf_notify_andThen _ h, Content.rendering, List.map_cons]
  congr 1
  cases enabled with
  | false => exact callsOf_disable later
  | true =>
    cases hup : isUpToDate force (notify (.epoch epoch) s).state with
    | true =>
      have upToDate : (!force && s.tab.ipcOpen &&
          Content.isVisible (Content.notify (.epoch epoch) s.tab.content)) = true := hup
      simp only [if_true, upToDate]
      exact calls_send (by simp) tab _
    | false =>
      have outdated : (!force && s.tab.ipcOpen &&
          Content.isVisible (Content.notify (.epoch epoch) s.tab.content)) = false := hup
      simp only [if_true, outdated, Bool.false_eq_true, if_false]
      exact callsOf_enable later

/-- What content is told in fact when its tab catches up on what was put off. -/
theorem callsOf_replay (due : GateReplay) (h : s.tab.id = tab) :
    callsOf tab (replay due s).trace =
      (Content.catchUp s.tab.ipcOpen due s.tab.content).map .notice := by
  obtain ⟨active, render⟩ := due
  cases active with
  | none =>
    cases render with
    | none => rfl
    | some r => exact callsOf_applyRender r.enabled false r.epoch h
  | some a =>
    have told : replay { active := some a, render } s =
        (notify (.active a) s).andThen (replayRender render) := rfl
    rw [told, callsOf_notify_andThen _ h]
    cases render with
    | none => rfl
    | some r =>
      have later : (notify (.active a) s).state.tab.id = tab := h
      exact congrArg (.notice (.active a) :: ·) (callsOf_applyRender r.enabled false r.epoch later)

end Seat

end TabHost
