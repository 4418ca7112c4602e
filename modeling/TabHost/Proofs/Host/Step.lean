import TabHost.Proofs.Host.Event
import TabHost.Proofs.Tab.Teardown

/-!
# What an event comes to

Most events come to an act that is done to one tab; `Host.deed?` says which act, to which
tab, and what the tab shares with others then. `Host.stepCase` tells all that an event can
come to: nothing for any tab, a new tab, an act (`Host.Acts`), or the end of all tabs
(`Host.Shuts`).

It follows that all tabs of a host are sound and go by their ids (`Host.sound_step`).
-/

set_option linter.unusedSectionVars false

namespace TabHost

/-- The tab that a task is for. -/
def Task.tab : Task → TabId
  | .deliver e => e.tab
  | .delete d => d.tab

/-- What a task does to its tab. -/
def Task.act : Task → Act
  | .deliver e => .request e
  | .delete d => .pass d

/-- An act, the tab that it is done to, and what the tab shares with others then. -/
structure Deed where
  tab : TabId
  act : Act
  around : Shared

namespace Host

variable {σ : Type} [Content σ]

/-- Every tab of a host is sound, and goes by its id. -/
def Sound (h : Host σ) : Prop :=
  ∀ tab t, h.tabs.get? tab = some t → t.Sound ∧ t.GoesBy tab

/-- The act that an event comes to. -/
def deed? (h : Host σ) : Event σ → Option Deed
  | .runOne => h.takeTask?.map fun r => { tab := r.1.tab, act := r.1.act, around := r.2.shared }
  | .flush tab => some { tab := tab, act := .flush, around := h.shared }
  | .addBlocker tab => some { tab := tab, act := .addBlocker, around := h.shared }
  | .removeBlocker tab => some { tab := tab, act := .removeBlocker, around := h.shared }
  | .destroy tab => some { tab := tab, act := .destroy, around := h.shared }
  | .push tab e => some { tab := tab, act := .push e, around := h.shared }
  | .hangUp tab => some { tab := tab, act := .hangUp, around := h.shared }
  | _ => none

/-- An event does not come to dropping a single tab. -/
theorem act_ne_drop {h : Host σ} {ev : Event σ} {d : Deed} (hd : h.deed? ev = some d) :
    d.act ≠ .drop := by
  cases ev with
  | runOne =>
    obtain ⟨r, -, rfl⟩ := Option.map_eq_some_iff.mp hd
    dsimp only
    cases r.1 <;> simp [Task.act]
  | _ => cases hd <;> simp

/-! ## Acts -/

/-- What becomes of a host by an act that is done to one of its tabs. The tab may be gone
then, if the act deleted it. -/
structure Acts (build : Build) (h : Host σ) (tab : TabId) (a : Act) (s : Seat σ)
    (o : Outcome Effect (Host σ)) : Prop where
  trace : o.trace = (Seat.act build a s).trace
  fault : o.fault = (Seat.act build a s).fault
  shared : o.state.shared = (Seat.act build a s).state.shared
  others : ∀ other, other ≠ tab → o.state.tabs.get? other = h.tabs.get? other
  own : o.state.tabs.get? tab = some (Seat.act build a s).state.tab ∨
    o.state.tabs.get? tab = none ∧ (Seat.act build a s).state.tab.state = .deleted

theorem onTab_of_some {h : Host σ} {tab : TabId} {t : Tab σ} (ht : h.tabs.get? tab = some t)
    (op : Operation σ) :
    h.onTab tab op = (op { tab := t, shared := h.shared }).map fun s =>
      { h with tabs := h.tabs.insert tab s.tab, shared := s.shared } := by
  simp only [onTab, ht]

theorem onTab_of_none {h : Host σ} {tab : TabId} (ht : h.tabs.get? tab = none)
    (op : Operation σ) : h.onTab tab op = .ok h := by
  simp only [onTab, ht]

theorem acts_onTab (build : Build) {h : Host σ} {tab : TabId} {t : Tab σ}
    (ht : h.tabs.get? tab = some t) (a : Act) :
    Acts build h tab a { tab := t, shared := h.shared } (h.onTab tab (Seat.act build a)) := by
  rw [onTab_of_some ht]
  exact ⟨rfl, rfl, rfl, fun other hne => Table.get?_insert_of_ne hne _ _,
    Or.inl (Table.get?_insert_self _ _ _)⟩

/-- Dropping a tab whose window is gone changes nothing but that the tab is gone. -/
theorem dropTab_of_tornDown {h : Host σ} {tab : TabId} {t : Tab σ}
    (ht : h.tabs.get? tab = some t) (hd : t.IsTornDown) :
    h.dropTab tab = .ok { h with tabs := h.tabs.erase tab } := by
  rw [dropTab, onTab_of_some ht,
    Seat.destroyWindow_of_tornDown (s := { tab := t, shared := h.shared }) hd]
  show Outcome.ok { h with tabs := (h.tabs.insert tab t).erase tab } = _
  rw [Table.insert_of_get?_eq_some ht]

/-- Reaping takes a deleted tab away, without ado. -/
theorem acts_reap {build : Build} {h : Host σ} {tab : TabId} {a : Act} {s : Seat σ}
    {o : Outcome Effect (Host σ)} (h' : Acts build h tab a s o)
    (hs : (Seat.act build a s).state.tab.Sound) :
    Acts build h tab a s (o.andThen (reap tab)) := by
  cases hf : o.fault with
  | some f =>
    rw [Outcome.andThen_of_fault hf]
    exact h'
  | none =>
    unfold Outcome.andThen
    rw [hf]
    dsimp only
    unfold reap
    split
    · next hr =>
      obtain ⟨t, ht, hdel⟩ : ∃ t, o.state.tabs.get? tab = some t ∧ t.state = .deleted := by
        simpa [isReapable, Option.any_eq_true] using hr
      rcases h'.own with hown | ⟨hnone, -⟩
      · rw [ht] at hown
        cases hown
        have dead : (Seat.act build a s).state.tab.state.isLive = false := by
          rw [hdel]
          rfl
        rw [dropTab_of_tornDown ht (hs.tornDown dead)]
        refine ⟨?_, ?_, h'.shared, fun other hne => ?_, Or.inr ⟨?_, hdel⟩⟩
        · simpa using h'.trace
        · simpa [hf] using h'.fault
        · exact (Table.get?_erase_of_ne hne _).trans (h'.others other hne)
        · exact Table.get?_erase_self _ _
      · rw [ht] at hnone
        cases hnone
    · refine ⟨?_, ?_, h'.shared, h'.others, h'.own⟩
      · simpa using h'.trace
      · simpa [hf] using h'.fault

/-! ## Tasks -/

/-- Taking a task out changes nothing but the work that waits. -/
theorem takeTask?_eq_some {h h' : Host σ} {t : Task} (ht : h.takeTask? = some (t, h')) :
    h'.tabs = h.tabs ∧ h'.shared.surfaces = h.shared.surfaces := by
  obtain ⟨r, -, heq⟩ := Option.map_eq_some_iff.mp ht
  cases heq
  exact ⟨rfl, rfl⟩

theorem deed?_runOne {h h' : Host σ} {task : Task} (ht : h.takeTask? = some (task, h')) :
    h.deed? .runOne = some { tab := task.tab, act := task.act, around := h'.shared } := by
  rw [deed?, ht]
  rfl

theorem runTask_of_some (build : Build) (task : Task) {h : Host σ} {t : Tab σ}
    (ht : h.tabs.get? task.tab = some t) :
    h.runTask build task =
      (h.onTab task.tab (Seat.act build task.act)).andThen (reap task.tab) := by
  cases task with
  | deliver e =>
    have hc : h.tabs.contains e.tab = true := by
      rw [Table.contains, show h.tabs.get? e.tab = some t from ht]
      rfl
    rw [runTask, if_pos hc]
    rfl
  | delete d => rfl

/-- A task for a tab that is not there changes nothing. -/
theorem runTask_of_none (build : Build) (task : Task) {h : Host σ}
    (ht : h.tabs.get? task.tab = none) :
    (h.runTask build task).state = h ∧ (h.runTask build task).trace = [] := by
  cases task with
  | deliver e =>
    have hc : h.tabs.contains e.tab = false := Table.contains_eq_false_iff.mpr ht
    rw [runTask, hc, if_neg (by simp)]
    unfold dropUnrouted
    split <;> simp [Outcome.ok]
  | delete d =>
    have hn : h.tabs.get? d.tab = none := ht
    have hr : h.isReapable d.tab = false := by
      rw [isReapable, hn]
      rfl
    rw [runTask, onTab_of_none hn, Outcome.ok_andThen, reap, hr]
    exact ⟨rfl, rfl⟩

/-! ## The end of all tabs -/

/-- What becomes of a host whose tabs are all dropped. -/
structure Shuts (build : Build) (h : Host σ) (o : Outcome Effect (Host σ)) : Prop where
  fault : o.fault = none
  tabs : ∀ tab, o.state.tabs.get? tab = none
  entries : ∀ surface, o.state.shared.surfaces.entries.get? surface = none
  hosted : ∀ tab t, h.tabs.get? tab = some t →
    o.trace.filter (Effect.isOf tab) = (t.turn build { around := h.shared, act := .drop }).trace
  unhosted : ∀ tab, h.tabs.get? tab = none → o.trace.filter (Effect.isOf tab) = []

/-- What comes of dropping the tab of an id. -/
def farewells (h : Host σ) (tab : TabId) : List Effect :=
  match h.tabs.get? tab with
  | none => []
  | some t => if t.contentDestroyed then [] else [.call t.id (.notice .destroy)]

theorem trace_destroyWindow (s : Seat σ) :
    (Seat.destroyWindow s).fault = none ∧ (Seat.destroyWindow s).trace =
      if s.tab.contentDestroyed then [] else [.call s.tab.id (.notice .destroy)] := by
  unfold Seat.destroyWindow Seat.destroyContent
  have same : s.clearWindow.tab.contentDestroyed = s.tab.contentDestroyed := rfl
  rw [same]
  split <;> exact ⟨rfl, rfl⟩

theorem trace_turn_drop (build : Build) {h : Host σ} {tab : TabId} {t : Tab σ}
    (ht : h.tabs.get? tab = some t) (around : Shared) :
    (t.turn build { around := around, act := .drop }).fault = none ∧
      (t.turn build { around := around, act := .drop }).trace = h.farewells tab := by
  obtain ⟨hf, htr⟩ := trace_destroyWindow { tab := t, shared := around }
  refine ⟨hf, ?_⟩
  unfold farewells
  rw [ht]
  exact htr

theorem filter_farewells {h : Host σ} (hs : h.Sound) (tab other : TabId) :
    (h.farewells tab).filter (Effect.isOf other) =
      if other = tab then h.farewells tab else [] := by
  unfold farewells
  cases ht : h.tabs.get? tab with
  | none => simp
  | some t =>
    have hid : t.id = tab := (hs tab t ht).2.id
    dsimp only
    cases t.contentDestroyed with
    | true => simp
    | false =>
      by_cases hk : other = tab
      · simp [hk, Effect.isOf, hid]
      · simp [hk, Effect.isOf, hid, Ne.symm hk]

theorem dropTab_spec (h : Host σ) (tab : TabId) :
    (h.dropTab tab).fault = none ∧ (h.dropTab tab).trace = h.farewells tab ∧
      ∀ other, (h.dropTab tab).state.tabs.get? other =
        if other = tab then none else h.tabs.get? other := by
  unfold dropTab farewells
  cases ht : h.tabs.get? tab with
  | none =>
    rw [onTab_of_none ht]
    refine ⟨rfl, rfl, fun other => ?_⟩
    split
    · next hk =>
      rw [hk]
      exact Table.get?_erase_self _ _
    · next hk => exact Table.get?_erase_of_ne hk _
  | some t =>
    rw [onTab_of_some ht]
    obtain ⟨hf, htr⟩ := trace_destroyWindow { tab := t, shared := h.shared }
    refine ⟨hf, htr, fun other => ?_⟩
    split
    · next hk =>
      rw [hk]
      exact Table.get?_erase_self _ _
    · next hk =>
      exact (Table.get?_erase_of_ne hk _).trans (Table.get?_insert_of_ne hk _ _)

theorem dropTabs_spec (tabs : List TabId) {h : Host σ} (hs : h.Sound) :
    (h.dropTabs tabs).fault = none ∧
      (∀ tab, (h.dropTabs tabs).state.tabs.get? tab =
        if tab ∈ tabs then none else h.tabs.get? tab) ∧
      ∀ tab, (h.dropTabs tabs).trace.filter (Effect.isOf tab) =
        if tab ∈ tabs then h.farewells tab else [] := by
  induction tabs generalizing h with
  | nil => exact ⟨rfl, fun tab => by simp [dropTabs], fun tab => by simp [dropTabs]⟩
  | cons first rest ih =>
    obtain ⟨hf, htr, hget⟩ := h.dropTab_spec first
    have hs' : (h.dropTab first).state.Sound := by
      intro tab t ht
      rw [hget] at ht
      split at ht
      · cases ht
      · exact hs tab t ht
    obtain ⟨hf', hget', htr'⟩ := ih hs'
    refine ⟨?_, fun tab => ?_, fun tab => ?_⟩
    · rw [dropTabs, Outcome.fault_andThen hf]
      exact hf'
    · rw [dropTabs, Outcome.state_andThen hf, hget', hget]
      by_cases hk : tab = first <;> by_cases hm : tab ∈ rest <;> simp [hk, hm]
    · rw [dropTabs, Outcome.trace_andThen hf, List.filter_append, htr, htr', filter_farewells hs]
      have later : (h.dropTab first).state.farewells tab =
          if tab = first then [] else h.farewells tab := by
        unfold farewells
        rw [hget]
        by_cases hk : tab = first <;> simp [hk]
      rw [later]
      by_cases hk : tab = first
      · simp [hk]
      · by_cases hm : tab ∈ rest <;> simp [hk, hm]

theorem shuts_shutdown (build : Build) {h : Host σ} (hs : h.Sound) :
    Shuts build h h.shutdown := by
  obtain ⟨hf, hget, htr⟩ := dropTabs_spec h.tabs.keys hs
  refine ⟨hf, fun tab => ?_, fun surface => rfl, fun tab t ht => ?_, fun tab ht => ?_⟩
  · refine (hget tab).trans ?_
    split
    · rfl
    · next hk => simpa [Table.mem_keys_iff] using hk
  · have hk : tab ∈ h.tabs.keys := Table.mem_keys_iff.mpr (by rw [ht]; rfl)
    rw [(trace_turn_drop build ht h.shared).2]
    exact (htr tab).trans (if_pos hk)
  · have hk : tab ∉ h.tabs.keys := by simp [Table.mem_keys_iff, ht]
    exact (htr tab).trans (if_neg hk)

/-! ## All that an event can come to -/

/-- All that an event can come to. -/
inductive StepCase (build : Build) (h : Host σ) (ev : Event σ)
    (o : Outcome Effect (Host σ)) : Prop
  /-- Nothing for any tab. -/
  | quiet (isShutdown : ev ≠ .shutdown)
      (deed : ∀ d, h.deed? ev = some d → h.tabs.get? d.tab = none)
      (tabs : o.state.tabs = h.tabs) (trace : o.trace = [])
      (surfaces : ev.isForeign = false → o.state.shared.surfaces = h.shared.surfaces)
  /-- A new tab. -/
  | created (tab : TabId) (content : σ) (link : ParentLink) (name : link.tab = tab)
      (shared : ∀ c, ev = .create tab c → link = { tab := tab })
      (event : (∃ c, ev = .create tab c) ∨ ∃ c heard, ev = .createOver tab c heard)
      (new : h.tabs.get? tab = none)
      (state : o = .emit (.created tab)
        { h with
          tabs := h.tabs.insert tab ((Tab.create tab h.settings content).connected link)
          retired := h.retired.filter fun t => t ≠ tab })
  /-- An act that is done to one tab. -/
  | acted (d : Deed) (t : Tab σ) (deed : h.deed? ev = some d)
      (tab : h.tabs.get? d.tab = some t) (around : d.around.surfaces = h.shared.surfaces)
      (acts : Acts build h d.tab d.act { tab := t, shared := d.around } o)
  /-- The end of all tabs. -/
  | shut (event : ev = .shutdown) (shuts : Shuts build h o)

theorem stepCase_createIfNew (build : Build) {h : Host σ} {ev : Event σ} {tab : TabId}
    {content : σ} {link : ParentLink} (name : link.tab = tab)
    (shared : ∀ c, ev = .create tab c → link = { tab := tab })
    (event : (∃ c, ev = .create tab c) ∨ ∃ c heard, ev = .createOver tab c heard) :
    StepCase build h ev (h.createIfNew tab content link) := by
  have hd : h.deed? ev = none := by
    rcases event with ⟨c, rfl⟩ | ⟨c, heard, rfl⟩ <;> rfl
  unfold createIfNew create?
  cases hc : h.tabs.contains tab with
  | true =>
    refine .quiet ?_ (fun d h' => ?_) rfl rfl fun _ => rfl
    · rcases event with ⟨c, rfl⟩ | ⟨c, heard, rfl⟩ <;> simp
    · rw [hd] at h'
      cases h'
  | false =>
    have new : h.tabs.get? tab = none := Table.contains_eq_false_iff.mp hc
    exact .created tab content link name shared event new rfl

/-- An act, on the way that the host does it while no task is due. -/
theorem stepCase_onTab (build : Build) {h : Host σ} {ev : Event σ} {tab : TabId} {a : Act}
    {o : Outcome Effect (Host σ)} (ne : ev ≠ .shutdown)
    (hd : h.deed? ev = some { tab := tab, act := a, around := h.shared })
    (ho : (h.tabs.get? tab).isSome = true → o = h.onTab tab (Seat.act build a))
    (hn : h.tabs.get? tab = none → o.state = h ∧ o.trace = []) : StepCase build h ev o := by
  cases ht : h.tabs.get? tab with
  | none =>
    obtain ⟨hs, htr⟩ := hn ht
    refine .quiet ne (fun d h' => ?_) (by rw [hs]) htr fun _ => by rw [hs]
    rw [hd] at h'
    cases h'
    exact ht
  | some t =>
    rw [ho (by rw [ht]; rfl)]
    exact .acted _ t hd ht rfl (acts_onTab build ht a)

theorem stepCase_onHosted (build : Build) {h : Host σ} {ev : Event σ} {tab : TabId} {a : Act}
    {v : Violation} {op : Operation σ} (ne : ev ≠ .shutdown) (hop : Seat.act build a = op)
    (hd : h.deed? ev = some { tab := tab, act := a, around := h.shared }) :
    StepCase build h ev (h.onHosted build tab v op) := by
  refine stepCase_onTab build ne hd (fun hs => ?_) fun hn => ?_
  · rw [onHosted, if_pos (by exact hs), hop]
  · rw [onHosted, if_neg (by simp [Table.contains, hn])]
    simp

/-- An event comes to nothing, to a new tab, to an act, or to the end of all tabs. -/
theorem stepCase (build : Build) {h : Host σ} (hs : h.Sound) (ev : Event σ) :
    StepCase build h ev (h.step build ev) := by
  have missing : ∀ {tab : TabId} {op : Operation σ}, h.tabs.get? tab = none →
      (h.onTab tab op).state = h ∧ (h.onTab tab op).trace = [] := by
    intro tab op hn
    rw [onTab_of_none hn]
    exact ⟨rfl, rfl⟩
  cases ev with
  | create tab content =>
    exact stepCase_createIfNew build rfl (fun _ _ => rfl) (Or.inl ⟨content, rfl⟩)
  | createOver tab content heard =>
    exact stepCase_createIfNew build rfl (fun _ h => by cases h) (Or.inr ⟨content, heard, rfl⟩)
  | post e => exact .quiet (by simp) (by simp [deed?]) rfl rfl fun _ => rfl
  | runOne =>
    cases hr : h.takeTask? with
    | none =>
      rw [step, runOne, hr]
      exact .quiet (by simp) (by simp [deed?, hr]) rfl rfl fun _ => rfl
    | some r =>
      obtain ⟨task, h'⟩ := r
      obtain ⟨htabs, hsurf⟩ := takeTask?_eq_some hr
      have hd := deed?_runOne hr
      rw [step, runOne, hr]
      dsimp only
      cases ht : h'.tabs.get? task.tab with
      | none =>
        obtain ⟨hstate, htr⟩ := runTask_of_none build task ht
        refine .quiet (by simp) (fun d heq => ?_) (by rw [hstate, htabs]) htr
          fun _ => by rw [hstate, hsurf]
        rw [hd] at heq
        cases heq
        exact htabs ▸ ht
      | some t =>
        have ht' : h.tabs.get? task.tab = some t := htabs ▸ ht
        have acts := acts_onTab build ht task.act
        have sound := Seat.sound_act build (s := { tab := t, shared := h'.shared })
          (hs _ _ ht').1 (act_ne_drop hd)
        rw [runTask_of_some build task ht]
        have reaped := acts_reap acts sound
        exact .acted _ t hd ht' hsurf
          ⟨reaped.trace, reaped.fault, reaped.shared, htabs ▸ reaped.others, reaped.own⟩
  | flush tab => exact stepCase_onTab build (by simp) rfl (fun _ => rfl) missing
  | addBlocker tab => exact stepCase_onHosted build (by simp) rfl rfl
  | removeBlocker tab => exact stepCase_onHosted build (by simp) rfl rfl
  | destroy tab => exact stepCase_onHosted build (by simp) rfl rfl
  | push tab e =>
    refine stepCase_onTab build (by simp) rfl (fun hs => ?_) fun hn => ?_
    · obtain ⟨t, ht⟩ := Option.isSome_iff_exists.mp hs
      rw [onTab_of_some ht, step, push, Table.modify_eq_insert ht]
      rfl
    · rw [step, push, Table.modify_of_get?_eq_none hn]
      exact ⟨rfl, rfl⟩
  | hangUp tab => exact stepCase_onTab build (by simp) rfl (fun _ => rfl) missing
  | setClock t => exact .quiet (by simp) (by simp [deed?]) rfl rfl fun _ => rfl
  | surfaces f => exact .quiet (by simp) (by simp [deed?]) rfl rfl fun h => by cases h
  | shutdown => exact .shut rfl (shuts_shutdown build hs)

/-! ## Soundness -/

theorem sound_new (settings : Settings) (clock : Duration) (surfaces : Surfaces) :
    (new settings clock surfaces : Host σ).Sound := by
  intro tab t ht
  cases ht

theorem sound_connected (tab : TabId) (settings : Settings) (content : σ) {link : ParentLink}
    (name : link.tab = tab) :
    ((Tab.create tab settings content).connected link).Sound ∧
      ((Tab.create tab settings content).connected link).GoesBy tab := by
  refine ⟨⟨fun _ => ⟨rfl, rfl⟩, fun h => absurd h (by simp [Tab.connected, Lifecycle.isLive])⟩,
    rfl, fun l hl => ?_⟩
  cases hl
  exact name

/-- What a tab that is there after an event was before it. -/
inductive TabCase (build : Build) (h : Host σ) (ev : Event σ) (o : Outcome Effect (Host σ))
    (tab : TabId) (t' : Tab σ) : Prop
  /-- What it is now; the event does not act on it. -/
  | spared (isShutdown : ev ≠ .shutdown) (before : h.tabs.get? tab = some t')
      (deed : ∀ d, h.deed? ev = some d → d.tab ≠ tab)
  /-- It was not there. -/
  | created (content : σ) (link : ParentLink) (name : link.tab = tab)
      (new : h.tabs.get? tab = none)
      (state : t' = (Tab.create tab h.settings content).connected link)
  /-- It was acted on. -/
  | acted (d : Deed) (t : Tab σ) (deed : h.deed? ev = some d) (name : d.tab = tab)
      (before : h.tabs.get? tab = some t) (around : d.around.surfaces = h.shared.surfaces)
      (fault : o.fault = (Seat.act build d.act { tab := t, shared := d.around }).fault)
      (shared : o.state.shared =
        (Seat.act build d.act { tab := t, shared := d.around }).state.shared)
      (state : t' = (Seat.act build d.act { tab := t, shared := d.around }).state.tab)

theorem tabCase (build : Build) {h : Host σ} (hs : h.Sound) {ev : Event σ} {tab : TabId}
    {t' : Tab σ} (ht' : (h.step build ev).state.tabs.get? tab = some t') :
    TabCase build h ev (h.step build ev) tab t' := by
  cases stepCase build hs ev with
  | quiet ne deed tabs =>
    rw [tabs] at ht'
    refine .spared ne ht' ?_
    intro d hd hk
    rw [← hk, deed d hd] at ht'
    cases ht'
  | created new content link name _ event none state =>
    rw [state] at ht'
    by_cases hk : tab = new
    · subst hk
      cases (Table.get?_insert_self _ _ _).symm.trans ht'
      exact .created content link name none rfl
    · have before : h.tabs.get? tab = some t' := (Table.get?_insert_of_ne hk _ _).symm.trans ht'
      rcases event with ⟨c, rfl⟩ | ⟨c, heard, rfl⟩
      · exact .spared (by simp) before (by simp [deed?])
      · exact .spared (by simp) before (by simp [deed?])
  | acted d t deed htab around acts =>
    by_cases hk : tab = d.tab
    · subst hk
      rcases acts.own with hown | ⟨hnone, -⟩
      · rw [hown] at ht'
        cases ht'
        exact .acted d t deed rfl htab around acts.fault acts.shared rfl
      · rw [hnone] at ht'
        cases ht'
    · rw [acts.others tab hk] at ht'
      refine .spared ?_ ht' ?_
      · rintro rfl
        cases deed
      · intro d' hd' hk'
        rw [deed] at hd'
        cases hd'
        exact hk hk'.symm
  | shut _ shuts =>
    rw [shuts.tabs] at ht'
    cases ht'

/-- Every event leaves the tabs of a host sound. -/
theorem sound_step (build : Build) {h : Host σ} (hs : h.Sound) (ev : Event σ) :
    (h.step build ev).state.Sound := by
  intro tab t' ht'
  cases tabCase build hs ht' with
  | spared _ before => exact hs tab t' before
  | created content link name _ state =>
    rw [state]
    exact sound_connected tab h.settings content name
  | acted d t deed name before _ _ _ state =>
    obtain ⟨hsound, hname⟩ := hs tab t before
    rw [state]
    exact ⟨Seat.sound_act build (s := { tab := t, shared := d.around }) hsound (act_ne_drop deed),
      (Seat.own_act build d.act hsound hname).1⟩

theorem Reachable.sound {build : Build} {h : Host σ} (hr : h.Reachable build) : h.Sound :=
  hr.induct sound_new fun _ ev hs _ => sound_step build hs ev

end Host

end TabHost
