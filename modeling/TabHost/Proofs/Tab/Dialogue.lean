import Mathlib.Data.List.Induction
import TabHost.Proofs.Tab.Acknowledgement

/-!
# What a tab says to its parent

Over its life a tab sends acknowledgements and answers to keys, and in the end it may say
farewell; nothing follows the farewell (`Tab.said_turns`). It says farewell just if it comes
to the second pass of the delete after a destroy that it accepted, and its link was not
reported lost until then (`Tab.farewell_iff`).

The second statement is about tabs with a link into the stream that all tabs share. Of such
a link the tab is the only one to close it, so whether it is open is for the tab to know
(`Tab.Parting`).
-/

set_option linter.unusedSectionVars false

namespace TabHost

variable {σ : Type} [Content σ]

namespace Seat

/-- Before it says farewell a tab does not close the stream of its messages. -/
theorem farewell_not_mem_works {tab : TabId} {s : Seat σ} {o : Outcome Effect (Seat σ)}
    (h : WorksOn s o) : .channelClose ∉ saidBy tab o.trace := fun hr => h.replies hr rfl

/-- Over a link into the shared stream the last pass sends the farewell, if the link is taken
to be open. -/
theorem trace_finishDelete {tab : TabId} {s : Seat σ} (hl : s.tab.link = some { tab := tab }) :
    (finishDelete s).trace =
      if s.tab.ipcOpen then [.sent .shared { tab := tab, reply := .channelClose }] else [] := by
  unfold finishDelete send
  rw [hl]
  split <;> rfl

end Seat

namespace Tab

/-! ## Grammar -/

/-- A word of messages with a farewell at most at its end. -/
def IsDialogue (said : List Reply) : Prop :=
  ∃ body, .channelClose ∉ body ∧ (said = body ∨ said = body ++ [.channelClose])

theorem IsDialogue.prepend {a b : List Reply} (ha : .channelClose ∉ a) (hb : IsDialogue b) :
    IsDialogue (a ++ b) := by
  obtain ⟨body, hbody, heq⟩ := hb
  refine ⟨a ++ body, fun h => (List.mem_append.mp h).elim ha hbody, ?_⟩
  rcases heq with rfl | rfl
  · exact Or.inl rfl
  · exact Or.inr (List.append_assoc _ _ _).symm

theorem isDialogue_idles {tab : TabId} {t : Tab σ} {o : Outcome Effect (Tab σ)}
    (h : t.Idles tab o) : IsDialogue (saidBy tab o.trace) := by
  refine ⟨[], List.not_mem_nil, ?_⟩
  rcases h.trace with ht | ⟨-, -, route, ht⟩
  · exact Or.inl (by rw [ht]; rfl)
  · exact Or.inr (by rw [ht]; simp [saidBy, Effect.replyOf?])

/-- What a tab says over its life is a dialogue. -/
theorem said_turns (build : Build) (xs : List Turn) {tab : TabId} {t : Tab σ} (h : t.Sound)
    (hg : t.GoesBy tab) (hd : ∀ x ∈ xs, x.act ≠ .drop) :
    IsDialogue (saidBy tab (t.turns build xs).trace) := by
  induction xs generalizing t with
  | nil => exact ⟨[], List.not_mem_nil, Or.inl rfl⟩
  | cons x xs ih =>
    have hx := hd x List.mem_cons_self
    have sound := Seat.sound_act build (s := t.seat x) h hx
    have own := (Seat.own_act build x.act (s := t.seat x) h hg).1
    -- what is said in the first turn, unless the window is gone before
    have opens : .channelClose ∉ saidBy tab (t.turn build x).trace →
        IsDialogue (saidBy tab (t.turns build (x :: xs)).trace) := by
      intro hn
      cases hf : (t.turn build x).fault with
      | some f =>
        rw [turns, Outcome.andThen_of_fault hf]
        exact ⟨_, hn, Or.inl rfl⟩
      | none =>
        rw [turns, Outcome.trace_andThen hf, saidBy_append]
        exact (ih sound own fun y hy => hd y (List.mem_cons_of_mem _ hy)).prepend hn
    cases Seat.does_act build x.act (s := t.seat x) h with
    | works _ _ hw => exact opens (Seat.farewell_not_mem_works hw)
    | hungUp _ _ _ heq =>
      refine opens ?_
      rw [turn, heq]
      exact List.not_mem_nil
    | tornDown _ _ ht =>
      refine opens ?_
      rw [turn, Outcome.trace_map, ht.trace]
      exact List.not_mem_nil
    | rests live _ => exact isDialogue_idles (idles_turns build (x :: xs) live (h.tornDown live) hg)

/-! ## The way to the farewell -/

/-- The link of a tab leads into the stream that all tabs share. -/
def IsShared (t : Tab σ) : Prop := ∀ l, t.link = some l → l.route = .shared

theorem IsShared.not_own {t : Tab σ} (h : t.IsShared) :
    (t.link.any fun l => l.route = .own) = false := by
  cases hl : t.link with
  | none => rfl
  | some l => simp [h l hl]

/-- The tab accepted a destroy in one of some turns. -/
def Accepted (build : Build) (t : Tab σ) (xs : List Turn) : Prop :=
  ∃ before x after, xs = before ++ x :: after ∧
    (t.turns build before).state.state.isLive = true ∧ x.act.asksDestroy = true

/-- The link was reported lost in one of some turns. -/
def LostLink (xs : List Turn) : Prop := ∃ x ∈ xs, x.act.losesLink = true

/-- The tab came to the second pass of its delete after a destroy that it accepted, and the
link was not reported lost until then. -/
def PartsInOrder (build : Build) (t : Tab σ) (xs : List Turn) : Prop :=
  ∃ before x after d, xs = before ++ x :: after ∧ (t.turns build before).fault = none ∧
    Accepted build t before ∧ (t.turns build before).state.state = .awaitingSecondPass ∧
    x.act = .pass d ∧ d.ready = true ∧ ¬LostLink before

theorem Accepted.append {build : Build} {t : Tab σ} {xs : List Turn} (h : Accepted build t xs)
    (ys : List Turn) : Accepted build t (xs ++ ys) := by
  obtain ⟨before, x, after, rfl, hl, ha⟩ := h
  exact ⟨before, x, after ++ ys, by simp, hl, ha⟩

theorem PartsInOrder.append {build : Build} {t : Tab σ} {xs : List Turn}
    (h : PartsInOrder build t xs) (ys : List Turn) : PartsInOrder build t (xs ++ ys) := by
  obtain ⟨before, x, after, d, rfl, h⟩ := h
  exact ⟨before, x, after ++ ys, d, by simp, h⟩

theorem lostLink_concat {xs : List Turn} {x : Turn} :
    LostLink (xs ++ [x]) ↔ LostLink xs ∨ x.act.losesLink = true := by
  simp [LostLink, or_and_right, exists_or]

/-- How a tab stands towards its parent after some turns. -/
structure Parting (build : Build) (tab : TabId) (t : Tab σ) (xs : List Turn) (u : Tab σ) :
    Prop where
  live : u.state.isLive = true → u.ipcOpen = true ∧ ¬LostLink xs
  tearing : u.state.isTearingDown = true →
    Accepted build t xs ∧ (u.ipcOpen = true ↔ ¬LostLink xs)
  link : u.state ≠ .deleted → u.link = some { tab := tab }
  shared : u.IsShared

theorem lostLink_concat_of_kept {xs : List Turn} {x : Turn} (hx : x.act.losesLink = false) :
    LostLink (xs ++ [x]) ↔ LostLink xs := by
  rw [lostLink_concat, hx]
  simp

theorem isTearingDown_of_isLive {state : Lifecycle} (h : state.isLive = true) :
    state.isTearingDown = false := by
  cases state <;> simp_all [Lifecycle.isLive, Lifecycle.isTearingDown]

namespace Parting

variable {build : Build} {tab : TabId} {t u u' : Tab σ} {xs : List Turn} {x : Turn}

/-- A tab that goes about its work keeps its standing. -/
theorem works (hp : Parting build tab t xs u) (hl : u.state.isLive = true)
    (ha : x.act.tearsDown = false) (hd : x.act ≠ .drop) (hs : u'.standing = u.standing) :
    Parting build tab t (xs ++ [x]) u' := by
  have kept : x.act.losesLink = false := by
    rw [Act.tearsDown_eq hd, Bool.or_eq_false_iff] at ha
    exact ha.2
  have hstate : u'.state = u.state := congrArg Standing.state hs
  have hipc : u'.ipcOpen = u.ipcOpen := congrArg Standing.ipcOpen hs
  have hlink : u'.link = u.link := congrArg Standing.link hs
  refine ⟨fun _ => ?_, fun ht => ?_, fun hn => ?_, fun l hl => hp.shared l (hlink ▸ hl)⟩
  · rw [hipc, lostLink_concat_of_kept kept]
    exact hp.live hl
  · rw [hstate, isTearingDown_of_isLive hl] at ht
    cases ht
  · rw [hlink]
    exact hp.link (hstate ▸ hn)

/-- A tab that is torn down accepted a destroy, or lost its link. -/
theorem tornDown (hu : u = (t.turns build xs).state) (hp : Parting build tab t xs u)
    (hl : u.state.isLive = true) (ha : x.act.tearsDown = true) (hd : x.act ≠ .drop) :
    Parting build tab t (xs ++ [x])
      { u.closed with
        state := x.act.stageAfter u.state, ipcOpen := u.ipcOpen && !x.act.losesLink } := by
  obtain ⟨hipc, hlost⟩ := hp.live hl
  have hlink : u.link = some { tab := tab } := hp.link fun hdel => by
    rw [hdel] at hl
    cases hl
  refine ⟨fun hl => ?_, fun ht => ?_, fun _ => hlink, hp.shared⟩
  · exact absurd (hl.symm.trans (Act.isLive_stageAfter ha hd u.state)) (by simp)
  · cases hasks : x.act.asksDestroy with
    | true =>
      have kept := Act.losesLink_of_asksDestroy hasks
      refine ⟨⟨xs, x, [], rfl, hu ▸ hl, hasks⟩, ?_⟩
      rw [lostLink_concat_of_kept kept]
      simp [hipc, kept, hlost]
    | false =>
      -- the link is lost, so the tab is deleted on the spot
      rw [Act.tearsDown_eq hd, hasks, Bool.false_or] at ha
      simp [Act.stageAfter, hasks, ha, Lifecycle.isTearingDown] at ht

/-- A tab that is torn down already only comes further in its delete, or loses its link. -/
theorem rests {s : Seat σ} {o : Outcome Effect (Seat σ)} (hp : Parting build tab t xs s.tab)
    (hdead : s.tab.state.isLive = false) (hr : Seat.Rests s x.act o) :
    Parting build tab t (xs ++ [x]) o.state.tab := by
  obtain ⟨around, a⟩ := x
  cases hr with
  | still link _ state =>
    rw [state]
    refine ⟨fun hl => absurd (hdead.symm.trans hl) (by simp), fun ht => ?_, hp.link, hp.shared⟩
    obtain ⟨hacc, hiff⟩ := hp.tearing ht
    exact ⟨hacc.append _, hiff.trans (not_congr (lostLink_concat_of_kept link)).symm⟩
  | unlinked link =>
    refine ⟨fun hl => absurd (hdead.symm.trans hl) (by simp), fun ht => ?_, hp.link, hp.shared⟩
    refine ⟨(hp.tearing ht).1.append _, ?_⟩
    rw [lostLink_concat]
    simp [Outcome.ok, link]
  | hungUp own =>
    exact absurd own (by simp [hp.shared.not_own])
  | bounced state ready =>
    have ht : s.tab.state.isTearingDown = true := by
      rw [state]
      rfl
    obtain ⟨hacc, hiff⟩ := hp.tearing ht
    have hlink : s.tab.link = some { tab := tab } := hp.link fun hdel => by
      rw [hdel] at ht
      cases ht
    exact ⟨fun hl => (by cases hl),
      fun _ => ⟨hacc.append _, hiff.trans (not_congr (lostLink_concat_of_kept rfl)).symm⟩,
      fun _ => hlink, hp.shared⟩
  | finished state ready =>
    rw [(Seat.finishDelete_cases _).2]
    exact ⟨fun hl => (by cases hl), fun ht => (by cases ht), fun hn => absurd rfl hn,
      fun l hl => (by cases hl)⟩

end Parting

theorem parting_turn (build : Build) {tab : TabId} {t u : Tab σ} {xs : List Turn} {x : Turn}
    (hu : u = (t.turns build xs).state) (h : u.Sound) (hp : Parting build tab t xs u)
    (hd : x.act ≠ .drop) : Parting build tab t (xs ++ [x]) (u.turn build x).state := by
  cases Seat.does_act build x.act (s := u.seat x) h with
  | works live ha hw => exact hp.works live ha hd hw.standing
  | hungUp _ _ own _ =>
    have unhung : (u.link.any fun l => l.route = .own) ≠ true := by simp [hp.shared.not_own]
    exact absurd own unhung
  | tornDown live ha ht =>
    have torn := hp.tornDown hu live ha hd
    rw [show (u.turn build x).state = _ from ht.tab]
    exact torn
  | rests live hr => exact Parting.rests (s := u.seat x) hp live hr

/-- An act is the second pass of the delete of a tab. -/
def IsSecondPass (u : Tab σ) (a : Act) : Prop :=
  u.state = .awaitingSecondPass ∧ ∃ d, a = .pass d ∧ d.ready = true

theorem not_isSecondPass_of_isLive {u : Tab σ} (hl : u.state.isLive = true) (a : Act) :
    ¬u.IsSecondPass a := by
  rintro ⟨hs, -⟩
  rw [hs] at hl
  cases hl

/-- A tab that is torn down says farewell in the second pass of its delete only. -/
theorem farewell_rests {tab : TabId} {s : Seat σ} {a : Act} {o : Outcome Effect (Seat σ)}
    (hlink : s.tab.state ≠ .deleted → s.tab.link = some { tab := tab }) (hr : Seat.Rests s a o) :
    .channelClose ∈ saidBy tab o.trace ↔ s.tab.IsSecondPass a ∧ s.tab.ipcOpen = true := by
  have unheard {trace : List Effect} (hn : .channelClose ∉ saidBy tab trace)
      (hp : ¬s.tab.IsSecondPass a) :
      .channelClose ∈ saidBy tab trace ↔ s.tab.IsSecondPass a ∧ s.tab.ipcOpen = true :=
    ⟨fun hm => absurd hm hn, fun hm => absurd hm.1 hp⟩
  cases hr with
  | still _ pass _ trace =>
    refine unheard (by rw [trace]; exact List.not_mem_nil) ?_
    rintro ⟨hs, d, ha, hready⟩
    exact pass d ha hready hs
  | unlinked link =>
    refine unheard List.not_mem_nil ?_
    rintro ⟨-, d, rfl, -⟩
    cases link
  | hungUp =>
    refine unheard List.not_mem_nil ?_
    rintro ⟨-, d, ha, -⟩
    cases ha
  | bounced state =>
    refine unheard List.not_mem_nil ?_
    rintro ⟨hs, -⟩
    rw [state] at hs
    cases hs
  | finished state ready =>
    have second : s.tab.IsSecondPass (.pass _) := ⟨state, _, rfl, ready⟩
    rw [Seat.trace_finishDelete (hlink (by rw [state]; simp))]
    cases hipc : s.tab.ipcOpen with
    | false => simp [saidBy]
    | true => simp [saidBy, Effect.replyOf?, second]

/-- The farewell is said in the second pass of the delete, if the link is taken to be open. -/
theorem farewell_turn (build : Build) {tab : TabId} {t u : Tab σ} {xs : List Turn} {x : Turn}
    (h : u.Sound) (hp : Parting build tab t xs u) :
    .channelClose ∈ saidBy tab (u.turn build x).trace ↔
      u.IsSecondPass x.act ∧ u.ipcOpen = true := by
  have unheard {trace : List Effect} (hn : .channelClose ∉ saidBy tab trace)
      (hl : u.state.isLive = true) :
      .channelClose ∈ saidBy tab trace ↔ u.IsSecondPass x.act ∧ u.ipcOpen = true :=
    ⟨fun hm => absurd hm hn, fun hm => absurd hm.1 (not_isSecondPass_of_isLive hl x.act)⟩
  cases Seat.does_act build x.act (s := u.seat x) h with
  | works live _ hw => exact unheard (Seat.farewell_not_mem_works hw) live
  | hungUp live _ _ heq =>
    refine unheard ?_ live
    rw [turn, heq]
    exact List.not_mem_nil
  | tornDown live _ ht =>
    refine unheard ?_ live
    rw [turn, Outcome.trace_map, ht.trace]
    exact List.not_mem_nil
  | rests live hr => exact farewell_rests (s := u.seat x) hp.link hr

theorem parting_turns (build : Build) {tab : TabId} {t : Tab σ} {xs : List Turn} (h : t.Sound)
    (hg : t.GoesBy tab) (hp : Parting build tab t [] t) (hd : ∀ x ∈ xs, x.act ≠ .drop)
    (hf : (t.turns build xs).fault = none) : Parting build tab t xs (t.turns build xs).state := by
  induction xs using List.reverseRec with
  | nil => exact hp
  | append_singleton xs x ih =>
    have hf' := fault_of_append hf
    have hd' : ∀ y ∈ xs, y.act ≠ .drop := fun y hy => hd y (List.mem_append_left _ hy)
    have sound := (sound_turns build xs h hg hd').1
    have next := parting_turn build rfl sound (ih hd' hf') (hd x (by simp))
    rw [turns_append, Outcome.state_andThen hf', turns_singleton]
    exact next

/-- A tab parts in order in the last of some turns, or did so before. -/
theorem partsInOrder_concat {build : Build} {t : Tab σ} {xs : List Turn} {x : Turn} :
    PartsInOrder build t (xs ++ [x]) ↔ PartsInOrder build t xs ∨
      ((t.turns build xs).fault = none ∧ Accepted build t xs ∧
        (t.turns build xs).state.IsSecondPass x.act ∧ ¬LostLink xs) := by
  constructor
  · rintro ⟨before, y, after, d, heq, hf, hacc, hs, hy, hready, hlost⟩
    rcases List.eq_nil_or_concat after with rfl | ⟨after', z, rfl⟩
    · obtain ⟨rfl, hlast⟩ := List.append_inj' heq rfl
      obtain rfl := List.singleton_inj.mp hlast
      exact Or.inr ⟨hf, hacc, ⟨hs, d, hy, hready⟩, hlost⟩
    · have heq' : xs ++ [x] = (before ++ y :: after') ++ [z] := by simpa using heq
      obtain ⟨heq', -⟩ := List.append_inj' heq' rfl
      exact Or.inl ⟨before, y, after', d, heq', hf, hacc, hs, hy, hready, hlost⟩
  · rintro (h | ⟨hf, hacc, ⟨hs, d, hy, hready⟩, hlost⟩)
    · exact h.append _
    · exact ⟨xs, x, [], d, rfl, hf, hacc, hs, hy, hready, hlost⟩

/-- A tab says farewell just if it parts in order. -/
theorem farewell_iff (build : Build) {tab : TabId} {t : Tab σ} {xs : List Turn} (h : t.Sound)
    (hg : t.GoesBy tab) (hp : Parting build tab t [] t) (hd : ∀ x ∈ xs, x.act ≠ .drop) :
    .channelClose ∈ saidBy tab (t.turns build xs).trace ↔ PartsInOrder build t xs := by
  induction xs using List.reverseRec with
  | nil =>
    refine ⟨fun h => absurd h List.not_mem_nil, ?_⟩
    rintro ⟨before, x, after, d, heq, -⟩
    exact absurd heq (by simp)
  | append_singleton xs x ih =>
    have hd' : ∀ y ∈ xs, y.act ≠ .drop := fun y hy => hd y (List.mem_append_left _ hy)
    rw [partsInOrder_concat, ← ih hd', turns_append]
    cases hf : (t.turns build xs).fault with
    | some f =>
      rw [Outcome.andThen_of_fault hf]
      simp
    | none =>
      have sound := (sound_turns build xs h hg hd').1
      have parting := parting_turns build h hg hp hd' hf
      have tearing : (t.turns build xs).state.IsSecondPass x.act →
          (t.turns build xs).state.state.isTearingDown = true := fun hs => by
        rw [hs.1]
        rfl
      rw [Outcome.trace_andThen hf, saidBy_append, List.mem_append, turns_singleton,
        farewell_turn build sound parting]
      refine or_congr_right ⟨?_, ?_⟩
      · rintro ⟨hs, hipc⟩
        obtain ⟨hacc, hiff⟩ := parting.tearing (tearing hs)
        exact ⟨rfl, hacc, hs, hiff.mp hipc⟩
      · rintro ⟨-, -, hs, hlost⟩
        exact ⟨hs, (parting.tearing (tearing hs)).2.mpr hlost⟩

/-! ## Over the shared stream -/

theorem isShared_turn (build : Build) {x : Turn} {t : Tab σ} (h : t.Sound) (hs : t.IsShared) :
    (t.turn build x).state.IsShared ∧
      ∀ route o, .sent route o ∈ (t.turn build x).trace → route = .shared := by
  cases Seat.does_act build x.act (s := t.seat x) h with
  | works _ _ hw =>
    have hlink : (t.turn build x).state.link = t.link := congrArg Standing.link hw.standing
    refine ⟨fun l hl => hs l (hlink ▸ hl), fun route o he => ?_⟩
    have hdoes := hw.effects _ he
    generalize hsent : Effect.sent route o = e at hdoes
    cases hdoes with
    | call => cases hsent
    | sent _ link =>
      cases hsent
      exact hs _ link
  | hungUp _ _ own _ =>
    exact absurd own (by simp [seat, hs.not_own])
  | tornDown _ _ ht =>
    rw [turn, Outcome.state_map, Outcome.trace_map, ht.tab, ht.trace]
    exact ⟨hs, fun route o he => absurd (List.mem_singleton.mp he) (by simp)⟩
  | rests live hr =>
    have idles := hr.idles live
    refine ⟨fun l hl => ?_, fun route o he => ?_⟩
    · obtain ⟨l', hl', -, hroute⟩ := idles.link l hl
      rw [hroute]
      exact hs l' hl'
    · rcases idles.trace with ht | ⟨l, -, hl, ht, -⟩ <;>
        rw [turn, Outcome.trace_map, ht] at he
      · cases he
      · cases List.mem_singleton.mp he
        exact hs l hl

theorem isShared_turns (build : Build) (xs : List Turn) {t : Tab σ} (h : t.Sound)
    (hs : t.IsShared) (hd : ∀ x ∈ xs, x.act ≠ .drop) :
    ∀ route o, .sent route o ∈ (t.turns build xs).trace → route = .shared := by
  induction xs generalizing t with
  | nil => exact fun _ _ he => absurd he List.not_mem_nil
  | cons x xs ih =>
    obtain ⟨hs', first⟩ := isShared_turn build (x := x) h hs
    have sound := Seat.sound_act build (s := t.seat x) h (hd x List.mem_cons_self)
    intro route o he
    cases hf : (t.turn build x).fault with
    | some f =>
      rw [turns, Outcome.andThen_of_fault hf] at he
      exact first route o he
    | none =>
      rw [turns, Outcome.trace_andThen hf] at he
      rcases List.mem_append.mp he with he | he
      · exact first route o he
      · exact ih sound hs' (fun y hy => hd y (List.mem_cons_of_mem _ hy)) route o he

end Tab

end TabHost
