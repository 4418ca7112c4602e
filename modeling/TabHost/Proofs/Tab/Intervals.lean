import Mathlib.Data.List.Induction
import Mathlib.Data.List.Infix
import TabHost.Content.Headless
import TabHost.Proofs.Render.Newest
import TabHost.Proofs.Tab.Demand
import TabHost.Proofs.Tab.Ledger

/-!
# Blocked intervals

The demands of a run fall into intervals during which there are blockers, and what lies
between them (`Demand.IsInterval`). Outside of the intervals a tab heeds a demand at once.
During an interval content is told nothing; at its end content is told of the last change of
the activation in it, and then brought into the last render state of it that was news
(`Tab.gate_by_intervals`). Nothing else of an interval is left at its end, so none of it comes
back in another one.

What a gate holds is what the interval under way decides, and a gate without blockers holds
nothing (`Tab.Gated`).
-/

set_option linter.unusedSectionVars false

namespace TabHost

/-- What a gate holds up. -/
def Gate.heldUp (g : Gate) : GateReplay := { active := g.active, render := g.render }

namespace Demand

/-! ## Intervals -/

/-- Of some demands, those from a certain one on make up an interval, which may be under way
still: there are blockers at each of them. It begins where there is none before it, or with
the run. -/
structure IsInterval (n : Nat) (past now : List Demand) : Prop where
  begins : past = [] ∨ outstanding n past = 0
  blocked : ∀ p, p <+: now → p ≠ [] → 0 < outstanding n (past ++ p)

instance (n : Nat) (past now : List Demand) : Decidable (IsInterval n past now) :=
  decidable_of_iff
    ((past = [] ∨ outstanding n past = 0) ∧
      ∀ p ∈ now.inits, p ≠ [] → 0 < outstanding n (past ++ p))
    ⟨fun h => ⟨h.1, fun p hp => h.2 p ((List.mem_inits p now).mpr hp)⟩,
      fun h => ⟨h.begins, fun p hp => h.blocked p ((List.mem_inits p now).mp hp)⟩⟩

instance (n : Nat) (ds : List Demand) : Decidable (InRoom n ds) :=
  decidable_of_iff (∀ p ∈ ds.inits, outstanding n p < UInt32.size)
    ⟨fun h p hp => h p ((List.mem_inits p ds).mpr hp),
      fun h p hp => h p ((List.mem_inits p ds).mp hp)⟩

/-- What an interval puts off: the last change of the activation, and the last render state
that was news. If the interval began before the run, something may be held up already. -/
def putOff (held : GateReplay) (epoch : Epoch) (past now : List Demand) : GateReplay :=
  { active := (now.filterMap active?).getLast?.or held.active
    render := (newsAmong epoch (renders past) (renders now)).getLast?.or held.render }

variable {n : Nat} {past now : List Demand} {d : Demand}

theorem IsInterval.of_concat (h : IsInterval n past (now ++ [d])) : IsInterval n past now :=
  ⟨h.begins, fun p hp => h.blocked p (hp.trans (List.prefix_append now [d]))⟩

theorem IsInterval.pos (h : IsInterval n past (now ++ [d])) :
    0 < d.blockers (outstanding n (past ++ now)) := by
  have := h.blocked (now ++ [d]) List.prefix_rfl (by simp)
  rwa [← List.append_assoc, outstanding_concat] at this

/-- The demands of a run are cut into an interval that is under way, if there are blockers, and
what was before it. -/
theorem exists_isInterval (n : Nat) (ds : List Demand) :
    ∃ past now, ds = past ++ now ∧ IsInterval n past now := by
  induction ds using List.reverseRecOn with
  | nil =>
    refine ⟨[], [], rfl, Or.inl rfl, fun p hp hne => ?_⟩
    exact absurd (List.prefix_nil.mp hp) hne
  | append_singleton ds d ih =>
    rcases Nat.eq_zero_or_pos (outstanding n (ds ++ [d])) with hzero | hpos
    · refine ⟨ds ++ [d], [], (List.append_nil _).symm, Or.inr hzero, fun p hp hne => ?_⟩
      exact absurd (List.prefix_nil.mp hp) hne
    · obtain ⟨past, now, rfl, interval⟩ := ih
      refine ⟨past, now ++ [d], (List.append_assoc _ _ _), interval.begins, fun p hp hne => ?_⟩
      rcases List.prefix_concat_iff.mp hp with rfl | hp
      · rwa [← List.append_assoc]
      · exact interval.blocked p hp hne

variable {held : GateReplay} {epoch : Epoch}

theorem renders_concat (ds : List Demand) (d : Demand) :
    renders (ds ++ [d]) = renders ds ++ d.render?.toList := by
  rw [renders_append]
  cases h : d.render? <;> simp [renders, h]

theorem putOff_activate (a : Bool) : putOff held epoch past (now ++ [.activate a]) =
    { putOff held epoch past now with active := some a } := by
  simp [putOff, renders_concat, active?, render?]

theorem putOff_render (force : Bool) (r : PendingRender) :
    putOff held epoch past (now ++ [.render force r]) =
      if r.IsNews epoch (renders (past ++ now)) then
        { putOff held epoch past now with render := some r }
      else putOff held epoch past now := by
  have asked : renders (now ++ [.render force r]) = renders now ++ [r] := renders_concat _ _
  simp only [putOff, asked, newsAmong_concat, renders_append]
  split <;> simp [active?]

theorem putOff_of_other (ha : d.active? = none) (hr : d.render? = none) :
    putOff held epoch past (now ++ [d]) = putOff held epoch past now := by
  simp [putOff, renders_concat, ha, hr]

end Demand

namespace Tab

variable {σ : Type} [Content σ]

/-- What was held up before the run already, in an interval that begins after some demands. -/
def heldBefore (t : Tab σ) : (past : List Demand) → GateReplay
  | [] => t.gate.heldUp
  | _ :: _ => {}

theorem heldBefore_concat (t : Tab σ) (ds : List Demand) (d : Demand) :
    t.heldBefore (ds ++ [d]) = {} := by
  cases ds <;> rfl

/-! ## Gates -/

/-- What has become of a tab by some demands: the gate counts the blockers, and holds what the
interval under way puts off; without blockers it holds nothing. What is newer than the tab is
newer than the tab was and than all that was asked for. -/
structure Gated (t u : Tab σ) (ds : List Demand) : Prop where
  blockers : u.gate.blockers.toNat = Demand.outstanding t.gate.blockers.toNat ds
  idle : u.gate.blockers = 0 → u.gate = {}
  newer : ∀ r : PendingRender, u.epoch < r.epoch ↔ r.IsNews t.epoch (Demand.renders ds)
  heldUp : ∀ past now, ds = past ++ now →
    Demand.IsInterval t.gate.blockers.toNat past now →
    u.gate.heldUp = Demand.putOff (t.heldBefore past) t.epoch past now

variable {t u : Tab σ} {ds : List Demand}

theorem gated_start (h : t.gate.blockers = 0 → t.gate = {}) : Gated t t [] := by
  refine ⟨rfl, h, fun r => ?_, fun past now heq _ => ?_⟩
  · exact ⟨fun hlt => ⟨hlt, by simp [Demand.renders]⟩, fun hn => hn.1⟩
  · obtain ⟨rfl, rfl⟩ := List.append_eq_nil_iff.mp heq.symm
    rfl

theorem Gated.free_iff (h : Gated t u ds) :
    u.gate.blockers = 0 ↔ Demand.outstanding t.gate.blockers.toNat ds = 0 := by
  rw [← h.blockers, ← UInt32.toNat_inj]
  rfl

theorem Gated.of_same {v : Tab σ} (h : Gated t u ds) (gate : v.gate = u.gate)
    (epoch : v.epoch = u.epoch) : Gated t v ds := by
  refine ⟨?_, ?_, ?_, ?_⟩
  · rw [gate]
    exact h.blockers
  · rw [gate]
    exact h.idle
  · rw [epoch]
    exact h.newer
  · rw [gate]
    exact h.heldUp

/-- One more demand. -/
theorem Gated.concat {v : Tab σ} {d : Demand} (h : Gated t u ds)
    (blockers : v.gate.blockers.toNat = d.blockers u.gate.blockers.toNat)
    (idle : v.gate.blockers = 0 → v.gate = {})
    (newer : ∀ r : PendingRender, v.epoch < r.epoch ↔
      u.epoch < r.epoch ∧ ∀ r' ∈ d.render?.toList, r'.epoch < r.epoch)
    (heldUp : v.gate.blockers ≠ 0 → ∀ held past now, ds = past ++ now →
      u.gate.heldUp = Demand.putOff held t.epoch past now →
      v.gate.heldUp = Demand.putOff held t.epoch past (now ++ [d])) :
    Gated t v (ds ++ [d]) := by
  have count : v.gate.blockers.toNat =
      Demand.outstanding t.gate.blockers.toNat (ds ++ [d]) := by
    rw [Demand.outstanding_concat, ← h.blockers, blockers]
  refine ⟨count, idle, fun r => ?_, fun past now heq interval => ?_⟩
  · rw [Demand.renders_concat, PendingRender.isNews_append, newer, h.newer]
  · rcases List.eq_nil_or_concat now with rfl | ⟨now, d', rfl⟩
    · -- no interval is under way, so there are no blockers
      rw [List.append_nil] at heq
      subst heq
      have hzero : v.gate.blockers.toNat = 0 :=
        count.trans (interval.begins.resolve_left (by simp))
      rw [idle (UInt32.toNat.inj hzero), heldBefore_concat]
      rfl
    · rw [List.concat_eq_append, ← List.append_assoc] at heq
      obtain ⟨rfl, hd⟩ := List.append_inj' heq rfl
      obtain rfl := List.singleton_inj.mp hd
      rw [List.concat_eq_append] at interval ⊢
      refine heldUp (fun hzero => ?_) _ past now rfl (h.heldUp past now rfl interval.of_concat)
      have pos := interval.pos
      rw [← h.blockers, ← blockers, hzero] at pos
      exact Nat.lt_irrefl 0 pos

theorem Gated.heeds {build : Build} {s : Seat σ} {d : Demand} {o : Outcome Effect (Seat σ)}
    (h : Gated t s.tab ds) (heeds : Seat.Heeds build s d o) :
    Gated t o.state.tab (ds ++ [d]) := by
  have same : ∀ r : PendingRender, s.tab.epoch < r.epoch ↔
      s.tab.epoch < r.epoch ∧ ∀ r' ∈ (none : Option PendingRender).toList, r'.epoch < r.epoch :=
    fun r => ⟨fun hlt => ⟨hlt, by simp⟩, And.left⟩
  have newest : ∀ {r' : PendingRender}, s.tab.epoch < r'.epoch → ∀ r : PendingRender,
      r'.epoch < r.epoch ↔
        s.tab.epoch < r.epoch ∧ ∀ r'' ∈ (some r').toList, r''.epoch < r.epoch := by
    intro r' hnew r
    refine ⟨fun hlt => ⟨Epoch.lt_trans hnew hlt, by simpa using hlt⟩, fun hlt => ?_⟩
    exact hlt.2 r' (by simp)
  cases heeds with
  | activated free => exact h.concat rfl h.idle same fun hb => absurd free hb
  | activeKept blocked =>
    refine h.concat rfl (fun hzero => absurd hzero blocked) same ?_
    intro _ held past now heq hheld
    rw [Demand.putOff_activate, ← hheld]
    rfl
  | @stale force r old =>
    refine h.concat rfl h.idle (fun r' => ⟨fun hlt => ⟨hlt, ?_⟩, And.left⟩) ?_
    · intro r'' hr''
      obtain rfl : r'' = r := by simpa [Demand.render?] using hr''
      exact Epoch.lt_of_not_lt_of_lt old hlt
    · intro _ held past now heq hheld
      rw [h.newer, heq] at old
      rw [Demand.putOff_render, if_neg old]
      exact hheld
  | @rendered force r new free =>
    obtain ⟨-, content, htab⟩ := Seat.applyRender_spec r.enabled force r.epoch
      { s with tab := { s.tab with epoch := r.epoch } }
    rw [htab]
    exact h.concat rfl h.idle (newest new) fun hb => absurd free hb
  | renderKept new blocked =>
    refine h.concat rfl (fun hzero => absurd hzero blocked) (newest new) ?_
    intro _ held past now heq hheld
    rw [h.newer, heq] at new
    rw [Demand.putOff_render, if_pos new, ← hheld]
    rfl
  | blocked count =>
    refine h.concat count (fun hzero => ?_) same ?_
    · rw [show s.tab.gate.blockers + 1 = 0 from hzero] at count
      cases count
    · intro _ held past now heq hheld
      rw [Demand.putOff_of_other rfl rfl]
      exact hheld
  | unheld free =>
    rw [Outcome.state_violation]
    refine h.concat ?_ h.idle same fun hb => absurd free hb
    rw [free]
    rfl
  | released count more =>
    refine h.concat ?_ (fun hzero => absurd hzero more) same ?_
    · exact (Nat.sub_eq_of_eq_add count.symm).symm
    · intro _ held past now heq hheld
      rw [Demand.putOff_of_other rfl rfl]
      exact hheld
  | replayed last =>
    obtain ⟨-, ⟨content, htab⟩, -⟩ := Seat.replay_cases s.tab.gate.active s.tab.gate.render
      (s.setGate {})
    rw [htab]
    refine h.concat ?_ (fun _ => rfl) same fun hb => absurd rfl hb
    rw [last]
    rfl

/-! ## Turns -/

/-- A live tab whose gate holds nothing without blockers. -/
structure Prompt (t : Tab σ) : Prop where
  sound : t.Sound
  live : t.state.isLive = true
  idle : t.gate.blockers = 0 → t.gate = {}

/-- A tab that was just created is prompt. -/
theorem prompt_connected (id : TabId) (settings : Settings) (content : σ) (link : ParentLink) :
    ((create id settings content).connected link).Prompt :=
  ⟨⟨fun _ => ⟨rfl, rfl⟩, fun h => by cases h⟩, rfl, fun _ => rfl⟩

variable {build : Build} {x : Turn} {xs : List Turn}

/-- In the room that a gate has, a live tab heeds a demand. -/
theorem Gated.heeds_turn {d : Demand} (h : Gated t u ds) (live : u.state.isLive = true)
    (hd : u.demand? x.act = some d)
    (room : Demand.InRoom t.gate.blockers.toNat (ds ++ [d])) :
    Seat.Heeds build (u.seat x) d (Seat.act build x.act (u.seat x)) := by
  have bound := room (ds ++ [d]) List.prefix_rfl
  rw [Demand.outstanding_concat, ← h.blockers] at bound
  rw [Seat.act_of_demand? (s := u.seat x) build live hd]
  exact Seat.heeds_operation build live bound

theorem Gated.turn (h : Gated t u ds) (live : u.state.isLive = true)
    (hx : x.act.tearsDown = false)
    (room : Demand.InRoom t.gate.blockers.toNat (ds ++ (u.demand? x.act).toList)) :
    Gated t (u.turn build x).state (ds ++ (u.demand? x.act).toList) := by
  cases hd : u.demand? x.act with
  | none =>
    have disregards := Seat.disregards_act build (s := u.seat x) live hx hd
    rw [Option.toList_none, List.append_nil]
    exact h.of_same disregards.gate disregards.epoch
  | some d =>
    rw [hd] at room
    exact h.heeds (h.heeds_turn live hd room)

/-- A live tab stays live, sound and the same, whatever it does short of being torn down. -/
theorem keeps_turn (build : Build) (sound : u.Sound) (live : u.state.isLive = true)
    (hx : x.act.tearsDown = false) :
    (u.turn build x).state.Sound ∧ (u.turn build x).state.state.isLive = true ∧
      (u.turn build x).state.id = u.id := by
  have undropped : x.act ≠ .drop := by
    intro h
    rw [h] at hx
    cases hx
  obtain ⟨id, -, state⟩ := Seat.keeps_act (s := u.seat x) build live hx
  exact ⟨Seat.sound_act build (s := u.seat x) sound undropped,
    (congrArg Lifecycle.isLive state).trans live, id⟩

/-- What has become of a prompt tab by some turns that did not tear it down. -/
theorem gated_turns (build : Build) {t : Tab σ} (prompt : t.Prompt)
    (spared : ∀ x ∈ xs, x.act.tearsDown = false) (fault : (t.turns build xs).fault = none)
    (room : Demand.InRoom t.gate.blockers.toNat (t.demands build xs)) :
    (t.turns build xs).state.Sound ∧ (t.turns build xs).state.state.isLive = true ∧
      (t.turns build xs).state.id = t.id ∧
      Gated t (t.turns build xs).state (t.demands build xs) := by
  induction xs using List.reverseRecOn with
  | nil => exact ⟨prompt.sound, prompt.live, rfl, gated_start prompt.idle⟩
  | append_singleton xs x ih =>
    have before := fault_of_append fault
    rw [demands_append build before, demands_singleton] at room ⊢
    rw [turns_append, Outcome.state_andThen before, turns_singleton]
    obtain ⟨sound, live, id, gated⟩ :=
      ih (fun y hy => spared y (List.mem_append_left _ hy)) before room.of_append
    have hx := spared x (by simp)
    obtain ⟨sound', live', id'⟩ := keeps_turn build (x := x) sound live hx
    exact ⟨sound', live', id'.trans id, gated.turn live hx room⟩

/-- How a tab goes about one more demand after others, by the intervals that they make up. -/
structure GoesByIntervals (build : Build) (t : Tab σ) (ds : List Demand) (u : Tab σ)
    (d : Demand) (o : Outcome Effect (Tab σ)) : Prop where
  /-- Without blockers, content is told of its activation at once. -/
  activated : ∀ a, d = .activate a → Demand.outstanding t.gate.blockers.toNat ds = 0 →
    callsOf t.id o.trace = [.notice (.active a)]
  /-- Without blockers, content is brought at once into a render state that is news. -/
  rendered : ∀ force r, d = .render force r →
    Demand.outstanding t.gate.blockers.toNat ds = 0 → r.IsNews t.epoch (Demand.renders ds) →
    callsOf t.id o.trace = (Content.rendering u.ipcOpen force r u.content).map .notice
  /-- A render state that is no news is ignored. -/
  stale : ∀ force r, d = .render force r → ¬r.IsNews t.epoch (Demand.renders ds) →
    callsOf t.id o.trace = []
  /-- During an interval, content is told nothing. -/
  quiet : 0 < Demand.outstanding t.gate.blockers.toNat (ds ++ [d]) → callsOf t.id o.trace = []
  /-- A blocker that is not there is not removed. -/
  unheld : d = .release → Demand.outstanding t.gate.blockers.toNat ds = 0 →
    callsOf t.id o.trace = []
  /-- At the end of an interval, content is told of what was put off in it, and of nothing
  else. -/
  caughtUp : d = .release → Demand.outstanding t.gate.blockers.toNat ds = 1 →
    ∀ past now, ds = past ++ now → Demand.IsInterval t.gate.blockers.toNat past now →
    callsOf t.id o.trace = (Content.catchUp u.ipcOpen
      (Demand.putOff (t.heldBefore past) t.epoch past now) u.content).map .notice
  /-- The demand is heeded to the end, but a checked build does not remove a blocker that is
  not there. -/
  ends : o.fault = none ∨ build = .checked ∧ d = .release ∧
    Demand.outstanding t.gate.blockers.toNat ds = 0

theorem Gated.goesByIntervals {d : Demand} {o : Outcome Effect (Seat σ)} (h : Gated t u ds)
    (id : u.id = t.id) (heeds : Seat.Heeds build (u.seat x) d o) :
    GoesByIntervals build t ds u d (o.map Seat.tab) := by
  have free : Demand.outstanding t.gate.blockers.toNat ds = 0 → u.gate.blockers = 0 :=
    h.free_iff.mpr
  refine ⟨?_, ?_, ?_, fun pos => ?_, ?_, ?_, ?_⟩
  · rintro a rfl hzero
    cases heeds with
    | activated => exact Seat.callsOf_notify _ id
    | activeKept blocked => exact absurd (free hzero) blocked
  · rintro force r rfl hzero news
    cases heeds with
    | stale old => exact absurd ((h.newer r).mpr news) old
    | rendered => exact Seat.callsOf_applyRender r.enabled force r.epoch id
    | renderKept _ blocked => exact absurd (free hzero) blocked
  · rintro force r rfl old
    cases heeds with
    | stale => rfl
    | rendered new => exact absurd ((h.newer r).mp new) old
    | renderKept new => exact absurd ((h.newer r).mp new) old
  · rw [Demand.outstanding_concat, ← h.blockers] at pos
    exact congrArg (callsOf t.id) (heeds.trace pos)
  · rintro rfl hzero
    cases heeds with
    | unheld =>
      exact congrArg (callsOf t.id)
        (Outcome.trace_violation build u.id .notBlocked (u.seat x))
    | released => rfl
    | replayed last => exact absurd (last.symm.trans (free hzero)) (by decide)
  · rintro rfl hone past now heq interval
    have last : u.gate.blockers = 1 := UInt32.toNat.inj (h.blockers.trans hone)
    cases heeds with
    | unheld free => exact absurd (last.symm.trans free) (by decide)
    | released _ more =>
      refine absurd ?_ more
      rw [show (u.seat x).tab.gate.blockers = 1 from last]
      rfl
    | replayed =>
      rw [← h.heldUp past now heq interval]
      exact Seat.callsOf_replay u.gate.heldUp id
  · exact heeds.ends.imp_right fun ⟨checked, release, hzero⟩ =>
      ⟨checked, release, h.free_iff.mp hzero⟩

/-- A turn that tears a live tab down tells content so, and of nothing that was put off. After
it, nothing comes any more. -/
theorem callsOf_tearsDown (prompt : u.Prompt) (hx : x.act.tearsDown = true) :
    callsOf u.id (u.turn build x).trace = [.notice .destroy] ∧
      (x.act ≠ .drop → ∀ ys, callsOf u.id ((u.turn build x).state.turns build ys).trace = []) := by
  have tears := Seat.tearsDown_act build (s := u.seat x) prompt.live
    (prompt.sound.live prompt.live).2 hx
  refine ⟨?_, fun undropped ys => ?_⟩
  · exact (congrArg (callsOf u.id) tears.trace).trans (callsOf_map_call u.id [.notice .destroy])
  · have sound := Seat.sound_act build (s := u.seat x) prompt.sound undropped
    have dead : (u.turn build x).state.state.isLive = false :=
      (congrArg (fun v => v.state.isLive) tears.tab).trans
        (Act.isLive_stageAfter hx undropped u.state)
    exact callsOf_turns_of_tornDown build ys u.id dead (sound.tornDown dead)

/-- Whatever was done to a prompt tab short of tearing it down, its demands are cut into the
interval under way and what was before. It stays prompt, and goes about the next demand by
the intervals. If content is told anything else, then that it is destroyed, and of nothing
that was put off then or later. -/
theorem gate_by_intervals (build : Build) {t : Tab σ} {xs : List Turn} {x : Turn}
    (prompt : t.Prompt) (spared : ∀ x ∈ xs, x.act.tearsDown = false)
    (fault : (t.turns build xs).fault = none)
    (room : Demand.InRoom t.gate.blockers.toNat (t.demands build (xs ++ [x]))) :
    (∃ past now, t.demands build xs = past ++ now ∧
      Demand.IsInterval t.gate.blockers.toNat past now) ∧
    (t.turns build xs).state.Prompt ∧
    (∀ d, (t.turns build xs).state.demand? x.act = some d →
      GoesByIntervals build t (t.demands build xs) (t.turns build xs).state d
        ((t.turns build xs).state.turn build x)) ∧
    ((t.turns build xs).state.demand? x.act = none → x.act.tearsDown = false →
      ∀ c ∈ callsOf t.id ((t.turns build xs).state.turn build x).trace, c.isInput = true) ∧
    (x.act.tearsDown = true →
      callsOf t.id ((t.turns build xs).state.turn build x).trace = [.notice .destroy] ∧
      (x.act ≠ .drop → ∀ ys, callsOf t.id
        (((t.turns build xs).state.turn build x).state.turns build ys).trace = [])) := by
  rw [demands_append build fault, demands_singleton] at room
  obtain ⟨sound, live, id, gated⟩ := gated_turns build prompt spared fault room.of_append
  have prompt' : (t.turns build xs).state.Prompt := ⟨sound, live, gated.idle⟩
  refine ⟨Demand.exists_isInterval _ _, prompt', fun d hd => ?_, fun hd hx c hc => ?_,
    fun hx => ?_⟩
  · rw [hd] at room
    exact gated.goesByIntervals id (gated.heeds_turn live hd room)
  · have disregards :=
      Seat.disregards_act build (s := (t.turns build xs).state.seat x) live hx hd
    rw [← id] at hc
    exact disregards.calls c hc
  · rw [← id]
    exact callsOf_tearsDown prompt' hx

/-- A live tab in the background. -/
def background : Tab Headless :=
  (create { value := 7 } {} {}).connected { tab := { value := 7 } }

/-- A turn around which nothing is there. -/
def alone (act : Act) : Turn := { around := {}, act := act }

/-- Behind two blockers, the activation changes twice, and two of three requests are news. One
of the blockers is gone already. -/
def putOffTwice : List Turn :=
  [alone .addBlocker, alone .addBlocker, asks (.setActive true),
    asks (.setRenderState true false { value := 3 }), asks (.setActive false),
    asks (.setRenderState true false { value := 2 }), alone .removeBlocker,
    asks (.setRenderState false false { value := 5 })]
where
  asks (request : Request) : Turn :=
    alone (.request { tab := { value := 7 }, request := request })

/-- What these turns ask of the gate. -/
def demandedTwice : List Demand :=
  [.block, .block, .activate true, .render false { enabled := true, epoch := { value := 3 } },
    .activate false, .render false { enabled := true, epoch := { value := 2 } }, .release,
    .render false { enabled := false, epoch := { value := 5 } }]

/-- With the other blocker, only the last change and the last request that was news are left. -/
theorem gate_by_intervals_background :
    callsOf ⟨7⟩ ((background.turns .checked putOffTwice).state.turn .checked
      (alone .removeBlocker)).trace =
      [.notice (.active false), .notice (.epoch ⟨5⟩), .notice .makeHidden,
        .notice .clearCachedResources] := by
  have spared : ∀ x ∈ putOffTwice, x.act.tearsDown = false := by decide
  have fault : (background.turns .checked putOffTwice).fault = none := by rfl
  have demanded : background.demands .checked putOffTwice = demandedTwice := by rfl
  have room : Demand.InRoom background.gate.blockers.toNat
      (background.demands .checked (putOffTwice ++ [alone .removeBlocker])) := by
    rw [demands_append .checked fault, demanded]
    decide
  have prompt : background.Prompt := prompt_connected _ _ _ _
  have interval : Demand.IsInterval 0 [] demandedTwice := by decide
  have goes := (gate_by_intervals .checked prompt spared fault room).2.2.1 .release (by rfl)
  exact (goes.caughtUp rfl (by rw [demanded]; rfl) [] demandedTwice demanded interval).trans
    (by rfl)

end Tab

end TabHost
