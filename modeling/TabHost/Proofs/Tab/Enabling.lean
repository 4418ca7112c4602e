import TabHost.Proofs.Tab.Demand
import TabHost.Proofs.Tab.Entry

/-!
# How a tab answers when it is to render

A render state is brought about when a newer one is requested and nothing blocks it, or when the
last blocker goes away (`Seat.Brings`); content hears of an epoch only then
(`Seat.brings_of_heard`). If the tab is to render then, it acknowledges the epoch over its open
link, or its content is shown and paints.

There is one state in which it does neither: the tab takes its link to be open, but the other
end is gone, and content is visible already (`Seat.Unheard`). In any other, exactly one of both
happens (`Seat.enables_enter`), and a tab whose other end has not gone away is never in that
state (`Tab.enabling_answered`).
-/

set_option linter.unusedSectionVars false

namespace TabHost

variable {σ : Type} [Content σ]

/-- What the gate is asked when a tab is entered. -/
def Tab.asks? (t : Tab σ) (en : Entry) : Option Demand := (en.act? t.id).bind t.demand?

/-- What content hears when its tab is brought into a render state, before the tab does
anything about it. -/
def Content.heard (active : Option Bool) (epoch : Epoch) : List Notice :=
  (active.map Notice.active).toList ++ [.epoch epoch]

namespace Seat

variable {s : Seat σ} {en : Entry} {active : Option Bool} {force : Bool} {r : PendingRender}
  {epoch : Epoch} {answer : List Effect}

theorem enter_of_asks? (build : Build) {d : Demand} (hl : s.tab.state.isLive = true)
    (asks : s.tab.asks? en = some d) : enter build en s = d.operation build s := by
  obtain ⟨a, ha, hd⟩ := Option.bind_eq_some_iff.mp asks
  rw [enter_of_live build hl ha, act_of_demand? build hl hd]

/-- A live tab that is entered is brought into a render state; content hears first of the
activation that was put off, if one was, and a repaint is forced or not. -/
inductive Brings (s : Seat σ) (en : Entry) : Option Bool → Bool → PendingRender → Prop
  /-- A newer one is requested, and nothing blocks it. -/
  | now {force : Bool} {r : PendingRender} (asks : s.tab.asks? en = some (.render force r))
      (new : s.tab.epoch < r.epoch) (free : s.tab.gate.blockers = 0) : Brings s en none force r
  /-- The last blocker goes away. -/
  | due {r : PendingRender} (asks : s.tab.asks? en = some .release) (last : s.tab.gate.blockers = 1)
      (kept : s.tab.gate.render = some r) : Brings s en s.tab.gate.active false r

/-! ## Answers -/

end Seat

namespace Standing

variable {st : Standing} {force : Bool} {epoch : Epoch} {c : σ} {answer : List Effect}

/-- The epoch is acknowledged over the open link. -/
def Acknowledged (st : Standing) (epoch : Epoch) (answer : List Effect) : Prop :=
  ∃ l, st.link = some l ∧ l.isOpen = true ∧
    answer = [.sent l.route { tab := l.tab, reply := .acknowledge epoch }]

/-- Content is shown and paints once, now or later. -/
def Repainted (st : Standing) (answer : List Effect) : Prop :=
  ∃ paint, (paint = .paintNow ∨ paint = .schedulePaint) ∧
    answer = [.call st.id (.notice .makeVisible), .call st.id (.notice paint)]

/-- The link is taken to be open though the other end is gone, and content is visible in its
state `c`. -/
structure Unheard (st : Standing) (force : Bool) (c : σ) : Prop where
  unforced : force = false
  ipcOpen : st.ipcOpen = true
  gone : ∀ l, st.link = some l → l.isOpen = false
  visible : Content.isVisible c = true

/-- Exactly one of the two answers is given, unless the tab is unheard. -/
structure Answered (st : Standing) (force : Bool) (epoch : Epoch) (c : σ)
    (answer : List Effect) : Prop where
  one : ((st.Acknowledged epoch answer ∨ st.Repainted answer) ∧
    ¬(st.Acknowledged epoch answer ∧ st.Repainted answer)) ↔ ¬st.Unheard force c
  none : st.Unheard force c → answer = []

theorem not_acknowledged_and_repainted :
    ¬(st.Acknowledged epoch answer ∧ st.Repainted answer) := by
  rintro ⟨⟨l, -, -, ha⟩, ⟨paint, -, hr⟩⟩
  rw [ha] at hr
  cases hr

theorem Answered.of_acknowledged (h : st.Acknowledged epoch answer) :
    st.Answered force epoch c answer := by
  have heard : ¬st.Unheard force c := by
    obtain ⟨l, hl, hopen, -⟩ := h
    intro unheard
    rw [unheard.gone l hl] at hopen
    cases hopen
  exact ⟨iff_of_true ⟨Or.inl h, not_acknowledged_and_repainted⟩ heard,
    fun unheard => absurd unheard heard⟩

theorem Answered.of_repainted (h : st.Repainted answer) (heard : ¬st.Unheard force c) :
    st.Answered force epoch c answer :=
  ⟨iff_of_true ⟨Or.inr h, not_acknowledged_and_repainted⟩ heard,
    fun unheard => absurd unheard heard⟩

theorem Answered.of_unheard (unheard : st.Unheard force c) : st.Answered force epoch c [] := by
  refine ⟨iff_of_false ?_ (not_not_intro unheard), fun _ => rfl⟩
  rintro ⟨⟨l, -, -, h⟩ | ⟨paint, -, h⟩, -⟩ <;> cases h

end Standing

namespace Seat

variable {s : Seat σ} {en : Entry} {active : Option Bool} {force : Bool} {r : PendingRender}
  {epoch : Epoch}

theorem repainted_enable (s : Seat σ) : s.tab.standing.Repainted (enable s).trace := by
  rw [enable, notify, Outcome.emit_andThen, paint, tab_markSurface]
  refine ⟨_, ?_, rfl⟩
  split
  · exact Or.inl rfl
  · exact Or.inr rfl

/-- What a tab does once content has heard that it is to render. -/
theorem answered (force : Bool) (epoch : Epoch) (s : Seat σ) :
    s.tab.standing.Answered force epoch s.tab.content
      (if s.isUpToDate force then send (.acknowledge epoch) s else enable s).trace := by
  cases hup : s.isUpToDate force with
  | false =>
    refine .of_repainted (repainted_enable s) fun unheard => ?_
    have ipcOpen : s.tab.ipcOpen = true := unheard.ipcOpen
    rw [isUpToDate, unheard.unforced, ipcOpen, unheard.visible] at hup
    cases hup
  | true =>
    simp only [isUpToDate, Bool.and_eq_true, Bool.not_eq_true'] at hup
    obtain ⟨⟨unforced, ipcOpen⟩, visible⟩ := hup
    rw [if_pos rfl]
    by_cases there : ∃ l, s.tab.link = some l ∧ l.isOpen = true
    · obtain ⟨l, hl, hopen⟩ := there
      rw [send_of_open (by simp) ipcOpen hl hopen]
      exact .of_acknowledged ⟨l, hl, hopen, rfl⟩
    · have gone : ∀ l, s.tab.link = some l → l.isOpen = false := fun l hl =>
        Bool.eq_false_iff.mpr fun hopen => there ⟨l, hl, hopen⟩
      rw [send_of_gone (by simp) gone]
      exact .of_unheard ⟨unforced, ipcOpen, gone, visible⟩

/-- What comes of bringing a tab into a render state in which it renders: content hears of it,
and the tab answers. -/
structure Enables (st : Standing) (c : σ) (active : Option Bool) (force : Bool) (epoch : Epoch)
    (o : Outcome Effect (Seat σ)) : Prop where
  fault : o.fault = none
  answer : ∃ answer,
    o.trace = (Content.heard active epoch).map (fun n => .call st.id (.notice n)) ++ answer ∧
      st.Answered force epoch (Content.after c ((Content.heard active epoch).map .notice)) answer

theorem enables_applyRender (force : Bool) (epoch : Epoch) (s : Seat σ) :
    Enables s.tab.standing s.tab.content none force epoch (applyRender true force epoch s) :=
  ⟨(applyRender_spec true force epoch s).1, _, rfl,
    answered force epoch (notify (.epoch epoch) s).state⟩

/-- Content hears first of an activation that was put off. -/
theorem enables_replay (active : Option Bool) (epoch : Epoch) (s : Seat σ) :
    Enables s.tab.standing s.tab.content active false epoch
      (replay { active, render := some { enabled := true, epoch } } s) := by
  cases active with
  | none => exact enables_applyRender false epoch s
  | some a =>
    obtain ⟨fault, answer, trace, answered⟩ :=
      enables_applyRender false epoch (notify (.active a) s).state
    have told : replay { active := some a, render := some { enabled := true, epoch } } s =
      (notify (.active a) s).andThen (applyRender true false epoch) := rfl
    refine ⟨?_, answer, ?_, answered⟩
    · rw [told, Outcome.fault_andThen rfl]
      exact fault
    · rw [told, Outcome.trace_andThen rfl, trace]
      rfl

/-- A live tab that is brought into a render state in which it renders gives an answer. -/
theorem enables_enter (build : Build) (hl : s.tab.state.isLive = true)
    (h : Brings s en active force r) (enabled : r.enabled = true) :
    Enables s.tab.standing s.tab.content active force r.epoch (enter build en s) := by
  obtain ⟨_, epoch⟩ := r
  cases enabled
  cases h with
  | now asks new free =>
    rw [enter_of_asks? build hl asks]
    rcases requestRender_cases true force epoch s with ⟨old, -⟩ | ⟨-, blocked, -⟩ | ⟨-, -, heq⟩
    · exact absurd new old
    · exact absurd free (isBlocked_ne blocked)
    · rw [show Demand.operation build (.render force { enabled := true, epoch }) s = _ from heq]
      exact enables_applyRender force epoch { s with tab := { s.tab with epoch := epoch } }
  | due asks last kept =>
    rw [enter_of_asks? build hl asks]
    have replayed : Demand.operation build .release s =
        replay { active := s.tab.gate.active, render := s.tab.gate.render } (s.setGate {}) := by
      rcases removeBlocker_cases build hl with ⟨none, -⟩ | ⟨more, -⟩ | ⟨-, heq⟩
      · rw [last] at none
        cases none
      · rw [last] at more
        exact absurd more (by decide)
      · exact heq
    rw [replayed, kept]
    exact enables_replay s.tab.gate.active epoch (s.setGate {})

/-! ## When a tab is brought into a render state -/

theorem heard_rendering {ipcOpen : Bool} {c : σ}
    (h : Notice.epoch epoch ∈ Content.rendering ipcOpen force r c) : epoch = r.epoch := by
  rw [Content.rendering, List.mem_cons] at h
  rcases h with h | h
  · exact Notice.epoch.inj h
  · split at h
    · split at h
      · cases h
      · simp only [List.mem_cons, List.not_mem_nil, or_false, reduceCtorEq, false_or] at h
        split at h <;> cases h
    · simp at h

theorem heard_catchUp {ipcOpen : Bool} {due : GateReplay} {c : σ}
    (h : Notice.epoch epoch ∈ Content.catchUp ipcOpen due c) :
    ∃ r, due.render = some r ∧ epoch = r.epoch := by
  obtain ⟨active, render⟩ := due
  cases render with
  | none => cases active <;> simp [Content.catchUp] at h
  | some r =>
    refine ⟨r, rfl, ?_⟩
    cases active with
    | none => exact heard_rendering h
    | some a =>
      simp only [Content.catchUp, List.mem_cons, reduceCtorEq, false_or] at h
      exact heard_rendering h

/-- If content hears of an epoch, it is one that waits to be rendered or is asked for. -/
theorem brings_of_heard_demand (build : Build) {d : Demand} (hl : s.tab.state.isLive = true)
    (asks : s.tab.asks? en = some d)
    (heard : .notice (.epoch epoch) ∈ callsOf s.tab.id (d.operation build s).trace) :
    ∃ active force r, Brings s en active force r ∧ r.epoch = epoch := by
  cases d with
  | activate a =>
    rw [Demand.operation, setActive] at heard
    split at heard
    · cases heard
    · rw [callsOf_notify _ rfl] at heard
      simp at heard
  | render force r =>
    rw [Demand.operation] at heard
    rcases requestRender_cases r.enabled force r.epoch s with ⟨-, heq⟩ | ⟨-, -, heq⟩ |
      ⟨new, free, heq⟩ <;> rw [heq] at heard
    · cases heard
    · cases heard
    · have told := callsOf_applyRender r.enabled force r.epoch
        (s := { s with tab := { s.tab with epoch := r.epoch } }) (Eq.refl s.tab.id)
      rw [told] at heard
      obtain ⟨n, hn, same⟩ := List.mem_map.mp heard
      cases same
      exact ⟨none, force, r, .now asks new (Gate.isBlocked_eq_false_iff.mp free),
        (heard_rendering hn).symm⟩
  | block =>
    rw [Demand.operation, addBlocker, if_pos hl, Gate.addBlocker] at heard
    split at heard <;> cases heard
  | release =>
    rw [Demand.operation] at heard
    rcases removeBlocker_cases build hl with ⟨-, -, trace⟩ | ⟨-, heq⟩ | ⟨last, heq⟩
    · rw [trace] at heard
      cases heard
    · rw [heq] at heard
      cases heard
    · have told := callsOf_replay { active := s.tab.gate.active, render := s.tab.gate.render }
        (s := s.setGate {}) (Eq.refl s.tab.id)
      rw [heq, told] at heard
      obtain ⟨n, hn, same⟩ := List.mem_map.mp heard
      cases same
      obtain ⟨r, kept, same⟩ := heard_catchUp hn
      exact ⟨_, false, r, .due asks last kept, same.symm⟩

/-- A live tab is brought into a render state whenever content hears of an epoch. -/
theorem brings_of_heard (build : Build) (hs : s.tab.Sound) (hl : s.tab.state.isLive = true)
    (heard : .notice (.epoch epoch) ∈ callsOf s.tab.id (enter build en s).trace) :
    ∃ active force r, Brings s en active force r ∧ r.epoch = epoch := by
  cases ha : en.act? s.tab.id with
  | none =>
    cases en with
    | connect l =>
      rw [enter, connect] at heard
      split at heard <;> simp [callsOf] at heard
    | _ => cases ha
  | some a =>
    cases hd : s.tab.demand? a with
    | some d =>
      have asks : s.tab.asks? en = some d := by rw [Tab.asks?, ha]; exact hd
      rw [enter_of_asks? build hl asks] at heard
      exact brings_of_heard_demand build hl asks heard
    | none =>
      rw [enter_of_live build hl ha] at heard
      cases ht : a.tearsDown with
      | true =>
        rw [(tearsDown_act build hl (hs.live hl).2 ht).trace] at heard
        simp [callsOf, Effect.callOf?] at heard
      | false =>
        have input := (disregards_act build hl ht hd).calls _ heard
        cases input

end Seat

/-! ## The other end of the link -/

namespace Tab

/-- A live tab that takes its link to be open has an open one. -/
def Heard (t : Tab σ) : Prop :=
  t.state.isLive = true → t.ipcOpen = true → ∃ l, t.link = some l ∧ l.isOpen = true

theorem heard_create (id : TabId) (settings : Settings) (content : σ) :
    (Tab.create id settings content).Heard :=
  fun _ ipcOpen => by cases ipcOpen

theorem Heard.of_eq {t u : Tab σ} (h : t.Heard) (state : u.state = t.state)
    (ipcOpen : u.ipcOpen = t.ipcOpen) (link : u.link = t.link) : u.Heard := by
  unfold Heard
  rw [state, ipcOpen, link]
  exact h

theorem Heard.connect (build : Build) (l : ParentLink) {s : Seat σ} (h : s.tab.Heard) :
    (Seat.connect build l s).state.tab.Heard := by
  unfold Seat.connect
  split
  · exact fun _ isOpen => ⟨l, rfl, isOpen⟩
  · simpa using h

/-- As long as the other end does not go away, a tab is heard. -/
theorem heard_visit (build : Build) {x : Visit} {t : Tab σ} (hs : t.Sound) (h : t.Heard)
    (hd : x.entry ≠ .act .drop) (there : x.entry ≠ .act .hangUp) :
    (t.visit build x).state.Heard := by
  cases hl : t.state.isLive with
  | false =>
    have down := Seat.staysDown_enter build x.entry (s := t.receive x) hl (hs.tornDown hl)
    exact fun live => absurd (down.state.symm.trans live) (by simp)
  | true =>
    cases ha : x.entry.act? t.id with
    | none =>
      obtain ⟨around, entry⟩ := x
      cases entry with
      | connect l => exact h.connect build l
      | _ => cases ha
    | some a =>
      have heq : (t.visit build x).state = (Seat.act build a (t.receive x)).state.tab :=
        congrArg (fun o => o.state.tab) (Seat.enter_of_live build (s := t.receive x) hl ha)
      rw [heq]
      cases Seat.does_act build a (s := t.receive x) hs with
      | works _ _ works =>
        exact h.of_eq works.state (congrArg Standing.ipcOpen works.standing)
          (congrArg Standing.link works.standing)
      | hungUp _ act =>
        cases act
        exact absurd (Entry.eq_act_of_act? ha (by simp)) there
      | tornDown _ act torn =>
        have undropped : a ≠ .drop := by
          rintro rfl
          exact hd (Entry.eq_act_of_act? ha (by simp))
        rw [torn.tab]
        exact fun live => absurd ((Act.isLive_stageAfter act undropped _).symm.trans live) (by simp)
      | rests dead => exact absurd (hl.symm.trans dead) (by simp)

/-- A tab is heard after whatever visits, if the other end of its link has not gone away. -/
theorem heard_visits (build : Build) {xs : List Visit} {t : Tab σ} (hs : t.Sound) (h : t.Heard)
    (hd : ∀ x ∈ xs, x.entry ≠ .act .drop) (there : ∀ x ∈ xs, x.entry ≠ .act .hangUp) :
    (t.visits build xs).state.Heard := by
  have both : (t.visits build xs).state.Sound ∧ (t.visits build xs).state.Heard :=
    visits_preserves (P := fun t => t.Sound ∧ t.Heard) build (fun x hx u hu =>
      ⟨sound_visit build hu.1 (hd x hx), heard_visit build hu.1 hu.2 (hd x hx) (there x hx)⟩)
      ⟨hs, h⟩
  exact both.2

/-- Whatever entered a live tab before: when it is brought into a render state in which it
renders, it either acknowledges the epoch over its open link or shows its content and lets it
paint, unless it is unheard, and then it does neither. It is not unheard if the other end of its
link has not gone away. -/
theorem enabling_answered (build : Build) (id : TabId) (settings : Settings) (content : σ)
    {before : List Visit} {x : Visit} {active : Option Bool} {force : Bool} {r : PendingRender}
    (kept : ∀ y ∈ before, y.entry ≠ .act .drop)
    (live : ((Tab.create id settings content).visits build before).state.state.isLive = true)
    (brings : Seat.Brings
      (((Tab.create id settings content).visits build before).state.receive x) x.entry active
      force r)
    (enabled : r.enabled = true) :
    let t := ((Tab.create id settings content).visits build before).state
    Seat.Enables t.standing t.content active force r.epoch
        (Seat.enter build x.entry (t.receive x)) ∧
      ((∀ y ∈ before, y.entry ≠ .act .hangUp) → ∀ c : σ, ¬t.standing.Unheard force c) := by
  intro t
  refine ⟨Seat.enables_enter build (s := t.receive x) live brings enabled, ?_⟩
  intro there c unheard
  have heard := heard_visits build (sound_create id settings content)
    (heard_create id settings content) kept there
  obtain ⟨l, hl, hopen⟩ := heard live unheard.ipcOpen
  rw [unheard.gone l hl] at hopen
  cases hopen

/-- A tab with visible content, over a link of its own. -/
def watched : List Visit :=
  [{ around := {}, entry := .connect { tab := { value := 7 }, route := .own } }]

/-- It is to render. -/
def rerender : Visit := { around := {}, entry := .requestRender true false { value := 1 } }

/-- It acknowledges the epoch, or its content is shown and paints. -/
theorem enabling_answered_watched : ∃ answer,
    (((Tab.create { value := 7 } {} ({ visible := true } : Headless)).visits .checked
      watched).state.visit .checked rerender).trace =
        .call { value := 7 } (.notice (.epoch { value := 1 })) :: answer ∧
    let t := ((Tab.create { value := 7 } {} ({ visible := true } : Headless)).visits .checked
      watched).state
    t.standing.Acknowledged { value := 1 } answer ∨ t.standing.Repainted answer := by
  have kept : ∀ y ∈ watched, y.entry ≠ .act .drop := by simp [watched]
  have there : ∀ y ∈ watched, y.entry ≠ .act .hangUp := by simp [watched]
  obtain ⟨enables, heard⟩ := enabling_answered .checked { value := 7 } {}
    ({ visible := true } : Headless) (x := rerender) kept rfl
    (.now (r := { enabled := true, epoch := { value := 1 } }) rfl (by decide) rfl) rfl
  obtain ⟨answer, trace, answered⟩ := enables.answer
  exact ⟨answer, trace, (answered.one.mpr (heard there _)).1⟩

/-- The other end of its link goes away, and the tab is not told. -/
def abandoned : List Visit := watched ++ [{ around := {}, entry := .act .hangUp }]

/-- A tab that is to render may neither acknowledge the epoch nor let its content paint. -/
theorem enabling_swallowed : ¬∀ (before : List Visit) (x : Visit) (active : Option Bool)
    (force : Bool) (r : PendingRender),
    let t := ((Tab.create { value := 7 } {} ({ visible := true } : Headless)).visits .checked
      before).state
    (∀ y ∈ before, y.entry ≠ .act .drop) → t.state.isLive = true →
    Seat.Brings (t.receive x) x.entry active force r → r.enabled = true →
    ∃ answer, (t.visit .checked x).trace =
        (Content.heard active r.epoch).map (fun n => .call { value := 7 } (.notice n)) ++ answer ∧
      (t.standing.Acknowledged r.epoch answer ∨ t.standing.Repainted answer) := by
  intro claim
  obtain ⟨answer, trace, answered⟩ := claim abandoned rerender none false
    { enabled := true, epoch := { value := 1 } } (by simp [abandoned, watched]) rfl
    (.now rfl (by decide) rfl) rfl
  cases (List.cons.inj trace).2
  rcases answered with ⟨l, -, -, h⟩ | ⟨paint, -, h⟩ <;> cases h

end Tab

end TabHost
