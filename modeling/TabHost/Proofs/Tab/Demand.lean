import TabHost.Proofs.Tab.Rendering
import TabHost.Proofs.Tab.Teardown

/-!
# What is asked of the gate

A `Demand` is what an act asks of a tab that the gate may put off, or asks of the gate itself:
a change of the activation, a render state, one more blocker or one less. `Tab.demands` are
those of a run. A paint that a tab does not heed, for want of a surface or a link, is none.

A live tab does with an act what it does with the demand (`Seat.act_of_demand?`), and heeds
the demand in one of few ways (`Seat.heeds_operation`): at once, or by putting it off, or not
at all. An act without a demand leaves the gate and the epoch alone and tells content nothing
(`Seat.disregards_act`).
-/

set_option linter.unusedSectionVars false

namespace TabHost

/-- What is asked of a gate, or waits for it. -/
inductive Demand where
  | activate (active : Bool)
  /-- A render state; a repaint is forced or not. -/
  | render (force : Bool) (r : PendingRender)
  | block
  | release
  deriving DecidableEq

namespace Demand

/-- The activation that is asked for. -/
def active? : Demand → Option Bool
  | .activate a => some a
  | _ => none

/-- The render state that is asked for. -/
def render? : Demand → Option PendingRender
  | .render _ r => some r
  | _ => none

/-- The number of blockers after a demand. One that is not there is not released. -/
def blockers (n : Nat) : Demand → Nat
  | .block => n + 1
  | .release => n - 1
  | _ => n

/-- The number of blockers after some demands. -/
def outstanding (n : Nat) (ds : List Demand) : Nat := ds.foldl blockers n

/-- The render states that are asked for. -/
def renders (ds : List Demand) : List PendingRender := ds.filterMap render?

/-- There are never `2^32` blockers. -/
def InRoom (n : Nat) (ds : List Demand) : Prop := ∀ p, p <+: ds → outstanding n p < UInt32.size

theorem outstanding_concat (n : Nat) (ds : List Demand) (d : Demand) :
    outstanding n (ds ++ [d]) = d.blockers (outstanding n ds) := by
  simp [outstanding]

theorem renders_append (ds ds' : List Demand) :
    renders (ds ++ ds') = renders ds ++ renders ds' :=
  List.filterMap_append

theorem InRoom.of_append {n : Nat} {ds ds' : List Demand} (h : InRoom n (ds ++ ds')) :
    InRoom n ds :=
  fun p hp => h p (hp.trans (List.prefix_append ds ds'))

variable {σ : Type} [Content σ]

/-- What a tab does with a demand. -/
def operation (build : Build) : Demand → Operation σ
  | .activate a => Seat.setActive a
  | .render force r => Seat.requestRender r.enabled force r.epoch
  | .block => Seat.addBlocker build
  | .release => Seat.removeBlocker build

end Demand

variable {σ : Type} [Content σ]

/-! ## The demands of a run -/

namespace Tab

/-- What an act asks of the gate of a tab, or of what waits for the gate. -/
def demand? (t : Tab σ) : Act → Option Demand
  | .addBlocker => some .block
  | .removeBlocker => some .release
  | .request e =>
    match e.request with
    | .setActive a => some (.activate a)
    | .setRenderState enabled force epoch => some (.render force { enabled, epoch })
    | .paintWhileInterrupting epoch force =>
      if t.ipcOpen && t.surface.isSome then some (.render force { enabled := true, epoch })
      else none
    | _ => none
  | _ => none

/-- What some turns ask of the gate of a tab, or of what waits for the gate. -/
def demands (build : Build) : List Turn → Tab σ → List Demand
  | [], _ => []
  | x :: rest, t => (t.demand? x.act).toList ++ demands build rest (t.turn build x).state

theorem demands_append (build : Build) {xs : List Turn} {t : Tab σ}
    (hf : (t.turns build xs).fault = none) (ys : List Turn) :
    t.demands build (xs ++ ys) =
      t.demands build xs ++ (t.turns build xs).state.demands build ys := by
  induction xs generalizing t with
  | nil => rfl
  | cons x xs ih =>
    obtain ⟨first, later⟩ := Outcome.fault_andThen_eq_none_iff.mp hf
    rw [List.cons_append, demands, demands, turns, Outcome.state_andThen first, ih later,
      List.append_assoc]

theorem demands_singleton (build : Build) (x : Turn) (t : Tab σ) :
    t.demands build [x] = (t.demand? x.act).toList :=
  List.append_nil _

end Tab

namespace Seat

variable {s : Seat σ} {o : Outcome Effect (Seat σ)}

/-- A live tab does with an act what it does with its demand. -/
theorem act_of_demand? (build : Build) {a : Act} {d : Demand}
    (hl : s.tab.state.isLive = true) (hd : s.tab.demand? a = some d) :
    act build a s = d.operation build s := by
  cases a with
  | addBlocker => cases hd; rfl
  | removeBlocker => cases hd; rfl
  | request e =>
    obtain ⟨tab, channel, priority, request⟩ := e
    simp only [act, handle, hl, if_true, handleLive]
    cases request with
    | setActive a => cases hd; rfl
    | setRenderState enabled force epoch => cases hd; rfl
    | paintWhileInterrupting epoch force =>
      simp only [Tab.demand?] at hd
      split at hd
      · next heeded =>
        cases hd
        simp only [paintWhileInterrupting, heeded, if_true]
        rfl
      · cases hd
    | _ => cases hd
  | _ => cases hd

/-! ## Acts without a demand -/

/-- An operation that leaves the gate and the epoch alone, and tells content nothing. -/
structure Disregards (s : Seat σ) (o : Outcome Effect (Seat σ)) : Prop where
  gate : o.state.tab.gate = s.tab.gate
  epoch : o.state.tab.epoch = s.tab.epoch
  calls : ∀ c ∈ callsOf s.tab.id o.trace, c.isInput = true

theorem Disregards.of_silent (gate : o.state.tab.gate = s.tab.gate)
    (epoch : o.state.tab.epoch = s.tab.epoch) (trace : o.trace = []) : Disregards s o :=
  ⟨gate, epoch, fun c hc => by rw [trace] at hc; cases hc⟩

theorem Feeds.disregards (h : Feeds s o) : Disregards s o :=
  ⟨h.gate, h.epoch, fun _ hc => h.toWorks.calls hc⟩

theorem disregards_initRendering (surface : SurfaceId) (s : Seat σ) :
    Disregards s (.ok (s.initRendering surface)) := by
  unfold initRendering
  split
  · exact .of_silent rfl rfl rfl
  · dsimp only
    split <;> exact .of_silent rfl rfl rfl

theorem disregards_act (build : Build) {a : Act} (hl : s.tab.state.isLive = true)
    (ha : a.tearsDown = false) (hd : s.tab.demand? a = none) :
    Disregards s (act build a s) := by
  cases a with
  | request e =>
    obtain ⟨tab, channel, priority, request⟩ := e
    simp only [act, handle, hl, if_true, handleLive]
    cases request with
    | destroy => cases ha
    | channelClosed => cases ha
    | setRenderState enabled force epoch => cases hd
    | setActive active => cases hd
    | paintWhileInterrupting epoch force =>
      have unheeded : (s.tab.ipcOpen && s.tab.surface.isSome) = false := by
        cases heeded : s.tab.ipcOpen && s.tab.surface.isSome with
        | false => rfl
        | true => simp only [Tab.demand?, heeded, if_true, reduceCtorEq] at hd
      simp only [paintWhileInterrupting, unheeded]
      exact .of_silent rfl rfl rfl
    | initRendering surface => exact disregards_initRendering surface s
    | pointerMove m => exact (feeds_pointerMove m s).disregards
    | synthPointerMove m => exact (feeds_pointerEvent _ s).disregards
    | button b => exact (feeds_pointerEvent _ s).disregards
    | wheel w => exact (feeds_wheelEvent w _ s).disregards
    | key k => exact (feeds_keyEvent k s).disregards
  | flush => exact (feeds_flushInput s).disregards
  | addBlocker => cases hd
  | removeBlocker => cases hd
  | destroy => cases ha
  | pass d =>
    rw [act, runDelete_of_live d hl]
    exact .of_silent rfl rfl rfl
  | push e => exact .of_silent rfl rfl rfl
  | hangUp =>
    rw [act, hangUp]
    split <;> exact .of_silent rfl rfl rfl
  | drop => cases ha

/-! ## Demands -/

/-- How a live tab heeds a demand. -/
inductive Heeds (build : Build) (s : Seat σ) : Demand → Outcome Effect (Seat σ) → Prop
  | activated {a} (free : s.tab.gate.blockers = 0) :
      Heeds build s (.activate a) (notify (.active a) s)
  | activeKept {a} (blocked : s.tab.gate.blockers ≠ 0) :
      Heeds build s (.activate a) (.ok (s.setGate { s.tab.gate with active := some a }))
  | stale {force r} (old : ¬s.tab.epoch < r.epoch) : Heeds build s (.render force r) (.ok s)
  | rendered {force r} (new : s.tab.epoch < r.epoch) (free : s.tab.gate.blockers = 0) :
      Heeds build s (.render force r)
        (applyRender r.enabled force r.epoch { s with tab := { s.tab with epoch := r.epoch } })
  | renderKept {force r} (new : s.tab.epoch < r.epoch) (blocked : s.tab.gate.blockers ≠ 0) :
      Heeds build s (.render force r)
        (.ok { s with
          tab := { s.tab with epoch := r.epoch, gate := { s.tab.gate with render := some r } } })
  | blocked (count : (s.tab.gate.blockers + 1).toNat = s.tab.gate.blockers.toNat + 1) :
      Heeds build s .block
        (.ok (s.setGate { s.tab.gate with blockers := s.tab.gate.blockers + 1 }))
  | unheld (free : s.tab.gate.blockers = 0) :
      Heeds build s .release (.violation build s.tab.id .notBlocked s)
  | released (count : (s.tab.gate.blockers - 1).toNat + 1 = s.tab.gate.blockers.toNat)
      (more : s.tab.gate.blockers - 1 ≠ 0) :
      Heeds build s .release
        (.ok (s.setGate { s.tab.gate with blockers := s.tab.gate.blockers - 1 }))
  | replayed (last : s.tab.gate.blockers = 1) :
      Heeds build s .release
        (replay { active := s.tab.gate.active, render := s.tab.gate.render } (s.setGate {}))

theorem isBlocked_ne {g : Gate} (h : g.isBlocked = true) : g.blockers ≠ 0 := by
  intro hzero
  rw [Gate.isBlocked_eq_false_iff.mpr hzero] at h
  cases h

theorem heeds_setActive (build : Build) (active : Bool) (s : Seat σ) :
    Heeds build s (.activate active) (setActive active s) := by
  unfold setActive Gate.captureActive?
  cases hb : s.tab.gate.isBlocked with
  | false => exact .activated (Gate.isBlocked_eq_false_iff.mp hb)
  | true => exact .activeKept (isBlocked_ne hb)

theorem heeds_requestRender (build : Build) (force : Bool) (r : PendingRender) (s : Seat σ) :
    Heeds build s (.render force r) (requestRender r.enabled force r.epoch s) := by
  rcases requestRender_cases r.enabled force r.epoch s with ⟨old, heq⟩ | ⟨new, hb, heq⟩ |
    ⟨new, hb, heq⟩ <;> rw [heq]
  · exact .stale old
  · exact .renderKept new (isBlocked_ne hb)
  · exact .rendered new (Gate.isBlocked_eq_false_iff.mp hb)

theorem heeds_removeBlocker (build : Build) (hl : s.tab.state.isLive = true) :
    Heeds build s .release (removeBlocker build s) := by
  rcases removeBlocker_cases build hl with ⟨hzero, -, -⟩ | ⟨hmore, heq⟩ | ⟨hone, heq⟩
  · have violated : removeBlocker build s = .violation build s.tab.id .notBlocked s := by
      simp [removeBlocker, hl, Gate.removeBlocker?_eq_none_iff.mpr hzero]
    rw [violated]
    exact .unheld hzero
  · have count := UInt32.toNat_sub_of_le _ _ (UInt32.le_of_lt hmore)
    have hmore' : 1 < s.tab.gate.blockers.toNat := UInt32.lt_iff_toNat_lt.mp hmore
    have hone : (1 : UInt32).toNat = 1 := rfl
    rw [heq]
    refine .released (by omega) fun hzero => ?_
    rw [hzero] at count
    have : (0 : UInt32).toNat = 0 := rfl
    omega
  · rw [heq]
    exact .replayed hone

/-- A live tab heeds a demand in one of these ways, as long as the gate has room for one more
blocker. -/
theorem heeds_operation (build : Build) {d : Demand} (hl : s.tab.state.isLive = true)
    (room : d.blockers s.tab.gate.blockers.toNat < UInt32.size) :
    Heeds build s d (d.operation build s) := by
  cases d with
  | activate a => exact heeds_setActive build a s
  | render force r => exact heeds_requestRender build force r s
  | block =>
    obtain ⟨added, count⟩ := Gate.addBlocker_of_room (ε := Effect) build room
    rw [Demand.operation, addBlocker, if_pos hl, added]
    exact .blocked count
  | release => exact heeds_removeBlocker build hl

/-- A demand does not end a live tab's life, and comes to its end unless a checked build stops
at a blocker that is not there. -/
theorem Heeds.ends {build : Build} {d : Demand} (h : Heeds build s d o) :
    o.fault = none ∨ build = .checked ∧ d = .release ∧ s.tab.gate.blockers = 0 := by
  cases h with
  | unheld free =>
    cases build with
    | checked => exact Or.inr ⟨rfl, rfl, free⟩
    | unchecked => exact Or.inl rfl
  | rendered => exact Or.inl (applyRender_spec _ _ _ _).1
  | replayed => exact Or.inl (replay_cases _ _ _).1
  | _ => exact Or.inl rfl

/-- Nothing comes of a demand that leaves blockers behind. -/
theorem Heeds.trace {build : Build} {d : Demand} (h : Heeds build s d o)
    (pos : 0 < d.blockers s.tab.gate.blockers.toNat) : o.trace = [] := by
  have blocked : 0 < s.tab.gate.blockers.toNat → s.tab.gate.blockers ≠ 0 := by
    intro hpos hzero
    rw [hzero] at hpos
    cases hpos
  cases h with
  | activated free => exact absurd free (blocked pos)
  | rendered _ free => exact absurd free (blocked pos)
  | unheld => exact Outcome.trace_violation ..
  | replayed last =>
    rw [Demand.blockers, last] at pos
    cases pos
  | _ => rfl

end Seat

end TabHost
