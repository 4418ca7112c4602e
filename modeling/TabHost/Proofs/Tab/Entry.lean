import TabHost.Content.Headless
import TabHost.Proofs.Tab.Rendering
import TabHost.Proofs.Tab.Teardown

/-!
# The ways into a tab

Whoever holds a tab may do to it what a host does, and may besides connect it, report the loss
of its link and request a render state without an envelope. An `Entry` is any of these, and
`Tab.visits` is a history of them. A tab is sound after all of them (`Tab.sound_visits`).

A tab that is torn down refuses all that enters it but the course of its delete, and the
farewell is the last that it says. The one exception is a newer render state that is requested
without an envelope: the tab carries it out (`Tab.refuses_once_torn_down`).
-/

set_option linter.unusedSectionVars false

namespace TabHost

/-- A way into a tab. -/
inductive Entry where
  /-- Something that a host does to it. -/
  | act (a : Act)
  /-- The link to the parent is there. -/
  | connect (l : ParentLink)
  /-- The loss of the link is reported without an envelope. -/
  | channelClosed
  /-- A render state is requested without an envelope. -/
  | requestRender (enabled force : Bool) (epoch : Epoch)

namespace Entry

/-- A render state is requested without an envelope, and is newer than an epoch. -/
def RendersAnew (en : Entry) (current : Epoch) : Prop :=
  ∃ enabled force epoch, en = .requestRender enabled force epoch ∧ current < epoch

/-- The act that does the same to a live tab. -/
def act? (tab : TabId) : Entry → Option Act
  | .act a => some a
  | .connect _ => none
  | .channelClosed => some (.request { tab, request := .channelClosed })
  | .requestRender enabled force epoch =>
    some (.request { tab, request := .setRenderState enabled force epoch })

theorem eq_act_of_act? {en : Entry} {tab : TabId} {a : Act} (h : en.act? tab = some a)
    (ha : ∀ e, a ≠ .request e) : en = .act a := by
  cases en <;> cases h
  · rfl
  · exact absurd rfl (ha _)
  · exact absurd rfl (ha _)

end Entry

variable {σ : Type} [Content σ]

namespace Seat

/-- Enters a tab. -/
def enter (build : Build) : Entry → Operation σ
  | .act a => act build a
  | .connect l => connect build l
  | .channelClosed => channelClosed
  | .requestRender enabled force epoch => requestRender enabled force epoch

variable {s : Seat σ} {en : Entry} {a : Act}

/-- It does not matter whether the loss of the link is reported with an envelope. -/
theorem channelClosed_eq_act (build : Build) (s : Seat σ) :
    channelClosed s = act build (.request { tab := s.tab.id, request := .channelClosed }) s := by
  simp only [act, handle]
  split <;> rfl

theorem enter_of_live (build : Build) (hl : s.tab.state.isLive = true)
    (ha : en.act? s.tab.id = some a) : enter build en s = act build a s := by
  cases en with
  | act a => cases ha; rfl
  | connect l => cases ha
  | channelClosed => cases ha; exact channelClosed_eq_act build s
  | requestRender enabled force epoch =>
    cases ha
    simp only [enter, act, handle, hl, if_true, handleLive]

/-- Only a tab that was just created is connected. -/
theorem connect_of_ne (build : Build) (l : ParentLink) (h : s.tab.state ≠ .created) :
    connect build l s = .violation build s.tab.id .openedTwice s :=
  if_neg h

/-! ## A tab whose window is gone -/

/-- A newer render state is not refused by a tab whose window is gone. -/
theorem requestRender_of_tornDown (enabled force : Bool) {epoch : Epoch} (h : s.tab.IsTornDown)
    (new : s.tab.epoch < epoch) : requestRender enabled force epoch s =
      applyRender enabled force epoch { s with tab := { s.tab with epoch := epoch } } := by
  rcases requestRender_cases enabled force epoch s with ⟨old, -⟩ | ⟨-, blocked, -⟩ | ⟨-, -, heq⟩
  · exact absurd new old
  · rw [h.gate] at blocked
    cases blocked
  · exact heq

/-- What is left as it was. -/
theorem Idles.of_eq {o : Outcome Effect (Seat σ)} (hl : s.tab.state.isLive = false)
    (state : o.state = s) (trace : o.trace = []) : Idles s o :=
  (Rests.still (a := .flush) rfl (fun _ h => by cases h) state trace).idles hl

/-- Whatever enters a tab whose window is gone comes to nothing, but for a newer render state. -/
theorem idles_enter (build : Build) (hl : s.tab.state.isLive = false) (h : s.tab.IsTornDown)
    (old : ¬en.RendersAnew s.tab.epoch) : Idles s (enter build en s) := by
  cases en with
  | act a => exact (rests_act build a hl h).idles hl
  | connect l =>
    have connected : s.tab.state ≠ .created := by
      intro created
      rw [created] at hl
      cases hl
    rw [enter, connect_of_ne build l connected]
    exact .of_eq hl (by simp) (by simp)
  | channelClosed =>
    rw [enter, channelClosed_eq_act build]
    exact (rests_act build _ hl h).idles hl
  | requestRender enabled force epoch =>
    rcases requestRender_cases enabled force epoch s with ⟨-, heq⟩ | ⟨new, -⟩ | ⟨new, -⟩
    · rw [enter, heq]
      exact .of_eq hl rfl rfl
    · exact absurd ⟨enabled, force, epoch, rfl, new⟩ old
    · exact absurd ⟨enabled, force, epoch, rfl, new⟩ old

/-- Content hears of every newer render state that is requested without an envelope. -/
theorem callsOf_enter_of_tornDown (build : Build) (enabled force : Bool) {epoch : Epoch}
    (h : s.tab.IsTornDown) (new : s.tab.epoch < epoch) :
    callsOf s.tab.id (enter build (.requestRender enabled force epoch) s).trace =
      (Content.rendering s.tab.ipcOpen force { enabled, epoch } s.tab.content).map .notice := by
  rw [enter, requestRender_of_tornDown enabled force h new]
  exact callsOf_applyRender enabled force epoch rfl

theorem idles_enter_iff (build : Build) (hl : s.tab.state.isLive = false)
    (h : s.tab.IsTornDown) : Idles s (enter build en s) ↔ ¬en.RendersAnew s.tab.epoch := by
  refine ⟨?_, idles_enter build hl h⟩
  rintro idles ⟨enabled, force, epoch, rfl, new⟩
  have calls := callsOf_enter_of_tornDown build enabled force h new
  rw [idles.callsOf] at calls
  cases calls

/-- What is said is said while the link is taken to be open. -/
theorem Works.ipcOpen_of_sent {C : Call → Prop} {R : Reply → Prop}
    {o : Outcome Effect (Seat σ)} (h : Works C R s o) {route : Route} {m : Outgoing}
    (hm : .sent route m ∈ o.trace) : s.tab.ipcOpen = true := by
  have does := h.effects _ hm
  generalize sent : Effect.sent route m = e at does
  cases does with
  | call => cases sent
  | sent ipc => exact ipc

/-- What remains of a tab whose window is gone, whatever enters it. -/
structure StaysDown (s : Seat σ) (o : Outcome Effect (Seat σ)) : Prop where
  state : o.state.tab.state.isLive = false
  tornDown : o.state.tab.IsTornDown
  ipcOpen : s.tab.ipcOpen = false → o.state.tab.ipcOpen = false
  /-- Without a link nothing is said. -/
  silent : s.tab.ipcOpen = false → ∀ route m, .sent route m ∉ o.trace

theorem Idles.staysDown {o : Outcome Effect (Seat σ)} (idles : Idles s o)
    (h : s.tab.IsTornDown) : StaysDown s o := by
  refine ⟨idles.state, h.of_eq idles.tab, idles.ipcOpen, fun closed route m hm => ?_⟩
  rcases idles.trace with ht | ⟨l, hopen, -⟩
  · rw [ht] at hm
    cases hm
  · rw [closed] at hopen
    cases hopen

theorem staysDown_enter (build : Build) (en : Entry) (hl : s.tab.state.isLive = false)
    (h : s.tab.IsTornDown) : StaysDown s (enter build en s) := by
  by_cases old : en.RendersAnew s.tab.epoch
  · obtain ⟨enabled, force, epoch, rfl, new⟩ := old
    have notifies := notifies_requestRender enabled force epoch s
    have carried := requestRender_of_tornDown enabled force h new
    obtain ⟨-, content, htab⟩ := applyRender_spec enabled force epoch
      { s with tab := { s.tab with epoch := epoch } }
    rw [← carried] at htab
    refine ⟨by rw [enter, htab]; exact hl, ?_, fun closed => by rw [enter, htab]; exact closed,
      fun closed route m hm => ?_⟩
    · rw [enter, htab]
      exact ⟨h.moves, h.wheel, h.keys, h.gate, h.surface, h.handle, h.contentDestroyed⟩
    · rw [notifies.ipcOpen_of_sent hm] at closed
      cases closed
  · exact (idles_enter build hl h old).staysDown h

/-- Once the farewell is said, the link is not taken to be open any more. -/
theorem ipcOpen_of_farewell (build : Build) (hl : s.tab.state.isLive = false)
    (h : s.tab.IsTornDown) {route : Route} {m : Outgoing}
    (said : .sent route m ∈ (enter build en s).trace) (hm : m.reply = .channelClose) :
    (enter build en s).state.tab.ipcOpen = false := by
  by_cases old : en.RendersAnew s.tab.epoch
  · obtain ⟨enabled, force, epoch, rfl, -⟩ := old
    have farewell : .channelClose ∈ saidBy m.tab (requestRender enabled force epoch s).trace :=
      mem_saidBy.mpr ⟨route, by rw [← hm]; exact said⟩
    obtain ⟨e, he⟩ := (notifies_requestRender enabled force epoch s).replies farewell
    cases he
  · rcases (idles_enter build hl h old).trace with ht | ⟨l, -, -, -, closed⟩
    · rw [ht] at said
      cases said
    · exact closed

/-- A tab stays sound, whatever enters it, unless it is dropped. -/
theorem sound_enter (build : Build) (h : s.tab.Sound) (hd : en ≠ .act .drop) :
    (enter build en s).state.tab.Sound := by
  cases hl : s.tab.state.isLive with
  | false =>
    have down := staysDown_enter build en hl (h.tornDown hl)
    exact ⟨fun live => absurd (down.state.symm.trans live) (by simp), fun _ => down.tornDown⟩
  | true =>
    cases ha : en.act? s.tab.id with
    | some a =>
      rw [enter_of_live build hl ha]
      refine sound_act build h ?_
      rintro rfl
      exact hd (Entry.eq_act_of_act? ha (by simp))
    | none =>
      cases en with
      | connect l =>
        rw [enter, connect]
        split
        · exact ⟨fun _ => h.live hl, fun dead => by cases dead⟩
        · simpa using h
      | _ => cases ha

end Seat

/-! ## Visits -/

/-- Something that enters a tab, and what the tab shares with others at that time. -/
structure Visit where
  around : Shared
  entry : Entry

namespace Tab

/-- The tab with what it shares with others in a visit. -/
def receive (x : Visit) (t : Tab σ) : Seat σ := { tab := t, shared := x.around }

/-- What becomes of a tab in a visit. -/
def visit (build : Build) (x : Visit) (t : Tab σ) : Outcome Effect (Tab σ) :=
  (Seat.enter build x.entry (t.receive x)).map Seat.tab

/-- What becomes of a tab in some visits. -/
def visits (build : Build) : List Visit → Tab σ → Outcome Effect (Tab σ)
  | [], t => .ok t
  | x :: rest, t => (t.visit build x).andThen (visits build rest)

theorem visits_append (build : Build) (xs ys : List Visit) (t : Tab σ) :
    t.visits build (xs ++ ys) = (t.visits build xs).andThen (visits build ys) := by
  induction xs generalizing t with
  | nil => rfl
  | cons x xs ih =>
    simp only [List.cons_append, visits, Outcome.andThen_assoc]
    congr 1
    funext t
    exact ih t

theorem visits_singleton (build : Build) (x : Visit) (t : Tab σ) :
    t.visits build [x] = t.visit build x :=
  Outcome.andThen_ok _

/-- What each visit keeps is kept by all of them. -/
theorem visits_preserves (build : Build) {P : Tab σ → Prop} {xs : List Visit}
    (step : ∀ x ∈ xs, ∀ t : Tab σ, P t → P (t.visit build x).state) {t : Tab σ} (h : P t) :
    P (t.visits build xs).state := by
  induction xs generalizing t with
  | nil => exact h
  | cons x xs ih =>
    exact Outcome.andThen_preserves (step x List.mem_cons_self t h) fun u hu =>
      ih (fun y hy => step y (List.mem_cons_of_mem _ hy)) hu

theorem sound_create (id : TabId) (settings : Settings) (content : σ) :
    (Tab.create id settings content).Sound :=
  ⟨fun _ => ⟨rfl, rfl⟩, fun dead => by cases dead⟩

theorem sound_visit (build : Build) {x : Visit} {t : Tab σ} (h : t.Sound)
    (hd : x.entry ≠ .act .drop) : (t.visit build x).state.Sound :=
  Seat.sound_enter build (s := t.receive x) h hd

/-- A tab is sound after whatever visits, unless it was dropped. -/
theorem sound_visits (build : Build) {xs : List Visit} {t : Tab σ} (h : t.Sound)
    (hd : ∀ x ∈ xs, x.entry ≠ .act .drop) : (t.visits build xs).state.Sound :=
  visits_preserves build (fun x hx _ ht => sound_visit build ht (hd x hx)) h

/-- A sound tab that is live after some visits was live before. -/
theorem live_of_visits (build : Build) {xs : List Visit} {t : Tab σ} (h : t.Sound)
    (live : (t.visits build xs).state.state.isLive = true) : t.state.isLive = true := by
  cases hl : t.state.isLive with
  | true => rfl
  | false =>
    have down : (t.visits build xs).state.state.isLive = false ∧
        (t.visits build xs).state.IsTornDown := by
      refine visits_preserves (P := fun u => u.state.isLive = false ∧ u.IsTornDown) build
        (fun x _ u hu => ?_) ⟨hl, h.tornDown hl⟩
      have down := Seat.staysDown_enter build x.entry (s := u.receive x) hu.1 hu.2
      exact ⟨down.state, down.tornDown⟩
    exact absurd (live.symm.trans down.1) (by simp)

theorem live_of_visit (build : Build) {x : Visit} {t : Tab σ} (h : t.Sound)
    (live : (t.visit build x).state.state.isLive = true) : t.state.isLive = true := by
  rw [← visits_singleton] at live
  exact live_of_visits build h live

/-- A tab without a window and without a link says nothing, whatever visits follow. -/
theorem silent_visits (build : Build) (xs : List Visit) {t : Tab σ}
    (hl : t.state.isLive = false) (h : t.IsTornDown) (closed : t.ipcOpen = false)
    (route : Route) (m : Outgoing) : .sent route m ∉ (t.visits build xs).trace := by
  induction xs generalizing t with
  | nil => exact List.not_mem_nil
  | cons x xs ih =>
    have down := Seat.staysDown_enter build x.entry (s := t.receive x) hl h
    have first : .sent route m ∉ (t.visit build x).trace := down.silent closed route m
    cases hf : (t.visit build x).fault with
    | some f =>
      rw [visits, Outcome.andThen_of_fault hf]
      exact first
    | none =>
      rw [visits, Outcome.trace_andThen hf, List.mem_append, not_or]
      exact ⟨first, ih down.state down.tornDown (down.ipcOpen closed)⟩

/-- What comes of a tab that is torn down when it is entered. -/
structure Refuses (build : Build) (t : Tab σ) (x : Visit) : Prop where
  /-- Nothing but the course of its delete, unless a newer render state is requested without an
  envelope. -/
  idles : Seat.Idles (t.receive x) (Seat.enter build x.entry (t.receive x)) ↔
    ¬x.entry.RendersAnew t.epoch
  /-- Such a render state is brought about, and content hears of it. -/
  renders : ∀ enabled force epoch, x.entry = .requestRender enabled force epoch →
    t.epoch < epoch → (t.visit build x).state.epoch = epoch ∧
      callsOf t.id (t.visit build x).trace =
        (Content.rendering t.ipcOpen force { enabled, epoch } t.content).map .notice
  /-- Nothing is said after the farewell, whatever follows. -/
  farewell : ∀ route m, .sent route m ∈ (t.visit build x).trace → m.reply = .channelClose →
    ∀ later route' m', .sent route' m' ∉ ((t.visit build x).state.visits build later).trace

/-- A tab that is torn down refuses all that enters it, as far as it does, whatever entered it
before. -/
theorem refuses_once_torn_down (build : Build) (id : TabId) (settings : Settings) (content : σ)
    {before : List Visit} (kept : ∀ y ∈ before, y.entry ≠ .act .drop)
    (torn : ((Tab.create id settings content).visits build before).state.state.isLive = false)
    (x : Visit) :
    ((Tab.create id settings content).visits build before).state.Refuses build x := by
  have gone := (sound_visits build (sound_create id settings content) kept).tornDown torn
  generalize ((Tab.create id settings content).visits build before).state = t at *
  refine ⟨Seat.idles_enter_iff build torn gone, ?_, ?_⟩
  · rintro enabled force epoch entry new
    have heq := Seat.callsOf_enter_of_tornDown build enabled force (s := t.receive x) gone new
    obtain ⟨-, content, htab⟩ := Seat.applyRender_spec enabled force epoch
      { t.receive x with tab := { t with epoch := epoch } }
    refine ⟨?_, by rw [visit, entry]; exact heq⟩
    rw [visit, entry, Seat.enter, Seat.requestRender_of_tornDown enabled force gone new]
    exact congrArg Tab.epoch htab
  · intro route m said hm later
    have down := Seat.staysDown_enter build x.entry (s := t.receive x) torn gone
    have closed := Seat.ipcOpen_of_farewell build (s := t.receive x) torn gone said hm
    exact silent_visits build later down.state down.tornDown closed

/-- A tab that was connected and is being destroyed. -/
def leaving : List Visit :=
  [{ around := {}, entry := .connect { tab := { value := 7 } } },
    { around := {}, entry := .act .destroy }]

/-- A visit of that tab that requests a render state. -/
def newerRender : Visit :=
  { around := {}, entry := .requestRender true false { value := 1 } }

/-- Content of a tab that is being destroyed is told to show itself and to paint. -/
theorem refuses_once_torn_down_rendering :
    callsOf { value := 7 } (((Tab.create { value := 7 } {} ({} : Headless)).visits .unchecked
      leaving).state.visit .unchecked newerRender).trace =
        [.notice (.epoch { value := 1 }), .notice .makeVisible, .notice .paintNow] := by
  have kept : ∀ y ∈ leaving, y.entry ≠ .act .drop := by simp [leaving]
  have refuses := refuses_once_torn_down .unchecked { value := 7 } {} ({} : Headless) kept
    (by rfl) newerRender
  exact (refuses.renders true false { value := 1 } rfl (by decide)).2

/-- A tab that is torn down does not refuse all that enters it. -/
theorem not_inert_once_torn_down : ¬∀ (before : List Visit) (x : Visit),
    (∀ y ∈ before, y.entry ≠ .act .drop) →
    ((Tab.create { value := 7 } {} ({} : Headless)).visits .unchecked
      before).state.state.isLive = false →
    ∀ tab c, .call tab c ∉ (((Tab.create { value := 7 } {} ({} : Headless)).visits .unchecked
      before).state.visit .unchecked x).trace := by
  intro claim
  exact claim leaving newerRender (by simp [leaving]) rfl { value := 7 }
    (.notice (.epoch { value := 1 })) List.mem_cons_self

end Tab

end TabHost
