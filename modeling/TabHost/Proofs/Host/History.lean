import TabHost.Proofs.Host.Step

/-!
# The history of one tab

Whatever happens around a tab, what comes of it is decided by the turns that it takes
(`Host.turnsOf`): the effects of a run that come of the tab are those of its turns, and the
host holds what the turns made of it until they delete or drop it (`Host.tells_runs`). An id
without a tab stays without one, and nothing comes of it, until a tab of that id is created
(`Host.absent_runs`).
-/

set_option linter.unusedSectionVars false

namespace TabHost

/-- Whether a tab was not created. -/
def Untouched (tab : TabId) (trace : List Effect) : Prop := ∀ e ∈ trace, e.creates tab = false

theorem untouched_append {tab : TabId} {a b : List Effect} :
    Untouched tab (a ++ b) ↔ Untouched tab a ∧ Untouched tab b := by
  simp only [Untouched, List.mem_append]
  exact ⟨fun h => ⟨fun e he => h e (Or.inl he), fun e he => h e (Or.inr he)⟩,
    fun h e he => he.elim (h.1 e) (h.2 e)⟩

namespace Host

variable {σ : Type} [Content σ]

/-! ## Turns -/

/-- The turn that a tab takes in an event, if it takes one. -/
def turnOf (h : Host σ) (tab : TabId) (ev : Event σ) : List Turn :=
  if (h.tabs.get? tab).isNone then []
  else
    match ev with
    | .shutdown => [{ around := h.shared, act := .drop }]
    | ev =>
      match h.deed? ev with
      | none => []
      | some d => if d.tab = tab then [{ around := d.around, act := d.act }] else []

/-- The turns that a tab takes in some events. -/
def turnsOf (build : Build) (tab : TabId) : List (Event σ) → Host σ → List Turn
  | [], _ => []
  | ev :: rest, h =>
    match (h.step build ev).fault with
    | some _ => h.turnOf tab ev
    | none => h.turnOf tab ev ++ turnsOf build tab rest (h.step build ev).state

theorem turnOf_of_none {h : Host σ} {tab : TabId} (ht : h.tabs.get? tab = none) (ev : Event σ) :
    h.turnOf tab ev = [] := by
  simp [turnOf, ht]

theorem turnOf_shutdown {h : Host σ} {tab : TabId} {t : Tab σ} (ht : h.tabs.get? tab = some t) :
    h.turnOf tab .shutdown = [{ around := h.shared, act := .drop }] := by
  simp [turnOf, ht]

theorem turnOf_eq {h : Host σ} {tab : TabId} {t : Tab σ} (ht : h.tabs.get? tab = some t)
    {ev : Event σ} (ne : ev ≠ .shutdown) :
    h.turnOf tab ev = match h.deed? ev with
      | none => []
      | some d => if d.tab = tab then [{ around := d.around, act := d.act }] else [] := by
  unfold turnOf
  rw [if_neg (by simp [ht])]
  split
  · exact absurd rfl ne
  · rfl

/-! ## What turns tell -/

/-- What comes of a tab in a run is what its turns make of it. -/
structure Tells (build : Build) (tab : TabId) (t : Tab σ) (xs : List Turn)
    (o : Outcome Effect (Host σ)) : Prop where
  trace : o.trace.filter (Effect.isOf tab) = (t.turns build xs).trace
  fault : o.fault = none → (t.turns build xs).fault = none
  tab : o.state.tabs.get? tab = some (t.turns build xs).state ∨
    o.state.tabs.get? tab = none ∧
      ((t.turns build xs).state.state = .deleted ∨ ∃ x ∈ xs, x.act = .drop)

theorem filter_isOf_of_ne {tab other : TabId} (hne : tab ≠ other) {trace : List Effect}
    (h : ∀ e ∈ trace, e.isOf other = true) : trace.filter (Effect.isOf tab) = [] := by
  refine List.filter_eq_nil_iff.mpr fun e he ht => hne ?_
  have ho := h e he
  cases e with
  | created => cases ho
  | call t c =>
    simp only [Effect.isOf, decide_eq_true_eq] at ho ht
    exact ht.symm.trans ho
  | sent r o =>
    simp only [Effect.isOf, decide_eq_true_eq] at ho ht
    exact ht.symm.trans ho

theorem tells_nothing {build : Build} {tab : TabId} {t : Tab σ} {o : Outcome Effect (Host σ)}
    (htrace : o.trace.filter (Effect.isOf tab) = []) (htab : o.state.tabs.get? tab = some t) :
    Tells build tab t [] o :=
  ⟨htrace, fun _ => rfl, Or.inl htab⟩

/-- What an act that is done to one tab tells of that tab, and of the others. -/
theorem tells_acts {build : Build} {h : Host σ} (hs : h.Sound) {tab : TabId} {t t' : Tab σ}
    (ht : h.tabs.get? tab = some t) {d : Deed} (htab : h.tabs.get? d.tab = some t')
    {o : Outcome Effect (Host σ)}
    (acts : Acts build h d.tab d.act { tab := t', shared := d.around } o) :
    Tells build tab t (if d.tab = tab then [{ around := d.around, act := d.act }] else []) o := by
  obtain ⟨hsound, hname⟩ := hs _ _ htab
  have own := (Seat.own_act build d.act (s := { tab := t', shared := d.around }) hsound hname).2
  by_cases hk : d.tab = tab
  · subst hk
    rw [ht] at htab
    cases htab
    rw [if_pos rfl]
    have same : t.turns build [{ around := d.around, act := d.act }] =
        (Seat.act build d.act { tab := t, shared := d.around }).map Seat.tab :=
      Tab.turns_singleton build _ t
    refine ⟨?_, fun hf => ?_, ?_⟩
    · rw [same, Outcome.trace_map, acts.trace]
      exact List.filter_eq_self.mpr own
    · rw [same, Outcome.fault_map, ← acts.fault]
      exact hf
    · rw [same]
      exact acts.own.imp_right fun h => ⟨h.1, Or.inl h.2⟩
  · rw [if_neg hk]
    refine tells_nothing ?_ ((acts.others tab (Ne.symm hk)).trans ht)
    rw [acts.trace]
    exact filter_isOf_of_ne (Ne.symm hk) own

theorem tells_step (build : Build) {h : Host σ} (hs : h.Sound) {tab : TabId} {t : Tab σ}
    (ht : h.tabs.get? tab = some t) (ev : Event σ) :
    Tells build tab t (h.turnOf tab ev) (h.step build ev) := by
  cases stepCase build hs ev with
  | quiet ne deed tabs trace =>
    have none : h.turnOf tab ev = [] := by
      rw [turnOf_eq ht ne]
      cases hd : h.deed? ev with
      | none => rfl
      | some d =>
        refine if_neg fun hk => ?_
        rw [← hk, deed d hd] at ht
        cases ht
    rw [none]
    exact tells_nothing (by rw [trace]; rfl) (by rw [tabs]; exact ht)
  | created tab' content link _ _ event new state =>
    have hne : tab ≠ tab' := by
      rintro rfl
      rw [new] at ht
      cases ht
    have none : h.turnOf tab ev = [] := by
      rcases event with ⟨c, rfl⟩ | ⟨c, heard, rfl⟩ <;> rw [turnOf_eq ht (by simp)] <;> rfl
    rw [none, state]
    exact tells_nothing rfl ((Table.get?_insert_of_ne hne _ _).trans ht)
  | acted d t' deed htab _ acts =>
    have ne : ev ≠ .shutdown := by
      rintro rfl
      cases deed
    rw [turnOf_eq ht ne, deed]
    exact tells_acts hs ht htab acts
  | shut event shuts =>
    rw [event, turnOf_shutdown ht, ← event]
    have same := Tab.turns_singleton build { around := h.shared, act := .drop } t
    refine ⟨?_, fun _ => ?_, Or.inr ⟨shuts.tabs tab, Or.inr ⟨_, List.mem_singleton.mpr rfl, rfl⟩⟩⟩
    · rw [same]
      exact shuts.hosted tab t ht
    · rw [same]
      exact (trace_turn_drop build ht h.shared).1

/-- Nothing comes of an id without a tab, until one is created. -/
theorem absent_step (build : Build) {h : Host σ} (hs : h.Sound) {tab : TabId}
    (ht : h.tabs.get? tab = none) {ev : Event σ} (hu : Untouched tab (h.step build ev).trace) :
    (h.step build ev).trace.filter (Effect.isOf tab) = [] ∧
      (h.step build ev).state.tabs.get? tab = none := by
  cases stepCase build hs ev with
  | quiet _ _ tabs trace => exact ⟨by rw [trace]; rfl, by rw [tabs]; exact ht⟩
  | created tab' content link _ _ _ _ state =>
    rw [state] at hu ⊢
    have hne : tab ≠ tab' := by
      rintro rfl
      have := hu _ (List.mem_singleton.mpr rfl)
      simp [Effect.creates] at this
    exact ⟨rfl, (Table.get?_insert_of_ne hne _ _).trans ht⟩
  | acted d t' _ htab _ acts =>
    have hne : tab ≠ d.tab := by
      rintro rfl
      rw [ht] at htab
      cases htab
    obtain ⟨hsound, hname⟩ := hs _ _ htab
    refine ⟨?_, (acts.others tab hne).trans ht⟩
    rw [acts.trace]
    exact filter_isOf_of_ne hne
      (Seat.own_act build d.act (s := { tab := t', shared := d.around }) hsound hname).2
  | shut _ shuts => exact ⟨shuts.unhosted tab ht, shuts.tabs tab⟩

/-! ## Runs -/

theorem turnsOf_of_none (build : Build) {tab : TabId} (evs : List (Event σ)) {h : Host σ}
    (hs : h.Sound) (ht : h.tabs.get? tab = none) (hu : Untouched tab (h.runs build evs).trace) :
    h.turnsOf build tab evs = [] := by
  induction evs generalizing h with
  | nil => rfl
  | cons ev rest ih =>
    rw [turnsOf]
    cases hf : (h.step build ev).fault with
    | some f => exact turnOf_of_none ht ev
    | none =>
      rw [runs, Outcome.trace_andThen hf] at hu
      obtain ⟨hu, hu'⟩ := untouched_append.mp hu
      rw [turnOf_of_none ht]
      exact ih (sound_step build hs ev) (absent_step build hs ht hu).2 hu'

theorem absent_runs (build : Build) {tab : TabId} (evs : List (Event σ)) {h : Host σ}
    (hs : h.Sound) (ht : h.tabs.get? tab = none) (hu : Untouched tab (h.runs build evs).trace) :
    (h.runs build evs).trace.filter (Effect.isOf tab) = [] ∧
      (h.runs build evs).state.tabs.get? tab = none := by
  induction evs generalizing h with
  | nil => exact ⟨rfl, ht⟩
  | cons ev rest ih =>
    cases hf : (h.step build ev).fault with
    | some f =>
      rw [runs, Outcome.andThen_of_fault hf] at hu ⊢
      exact absent_step build hs ht hu
    | none =>
      rw [runs, Outcome.trace_andThen hf] at hu
      obtain ⟨hu, hu'⟩ := untouched_append.mp hu
      obtain ⟨htr, hget⟩ := absent_step build hs ht hu
      obtain ⟨htr', hget'⟩ := ih (sound_step build hs ev) hget hu'
      rw [runs, Outcome.trace_andThen hf, Outcome.state_andThen hf, List.filter_append, htr, htr']
      exact ⟨rfl, hget'⟩

/-- What comes of a tab in a run without a new tab of its id is what its turns make of it. -/
theorem tells_runs (build : Build) {tab : TabId} (evs : List (Event σ)) {h : Host σ}
    (hs : h.Sound) {t : Tab σ} (ht : h.tabs.get? tab = some t)
    (hu : Untouched tab (h.runs build evs).trace) :
    Tells build tab t (h.turnsOf build tab evs) (h.runs build evs) := by
  induction evs generalizing h t with
  | nil => exact tells_nothing rfl ht
  | cons ev rest ih =>
    have first := tells_step build hs ht ev
    cases hf : (h.step build ev).fault with
    | some f =>
      rw [runs, turnsOf, hf, Outcome.andThen_of_fault hf]
      exact first
    | none =>
      have hturn := first.fault hf
      rw [runs, Outcome.trace_andThen hf] at hu
      obtain ⟨hu, hu'⟩ := untouched_append.mp hu
      have hs' := sound_step build hs ev
      rw [runs, turnsOf, hf]
      dsimp only
      rcases first.tab with htab | ⟨hnone, hend⟩
      · have later := ih hs' htab hu'
        refine ⟨?_, fun h' => ?_, ?_⟩
        · rw [Outcome.trace_andThen hf, List.filter_append, Tab.turns_append,
            Outcome.trace_andThen hturn, first.trace, later.trace]
        · rw [Outcome.fault_andThen hf] at h'
          rw [Tab.turns_append, Outcome.fault_andThen hturn]
          exact later.fault h'
        · rw [Outcome.state_andThen hf, Tab.turns_append, Outcome.state_andThen hturn]
          refine later.tab.imp_right fun h => ⟨h.1, h.2.imp_right ?_⟩
          rintro ⟨x, hx, hdrop⟩
          exact ⟨x, List.mem_append_right _ hx, hdrop⟩
      · obtain ⟨htr, hget⟩ := absent_runs build rest hs' hnone hu'
        rw [turnsOf_of_none build rest hs' hnone hu', List.append_nil]
        refine ⟨?_, fun _ => hturn, Or.inr ⟨?_, hend⟩⟩
        · rw [Outcome.trace_andThen hf, List.filter_append, htr, List.append_nil]
          exact first.trace
        · rw [Outcome.state_andThen hf]
          exact hget

/-- Only the end of all tabs drops a single one. -/
theorem act_ne_drop_of_mem_turnsOf {build : Build} {tab : TabId} {evs : List (Event σ)}
    (hs : .shutdown ∉ evs) {h : Host σ} {x : Turn} (hx : x ∈ h.turnsOf build tab evs) :
    x.act ≠ .drop := by
  induction evs generalizing h with
  | nil => exact absurd hx List.not_mem_nil
  | cons ev rest ih =>
    have first : x ∈ h.turnOf tab ev → x.act ≠ .drop := by
      intro hx
      cases ht : h.tabs.get? tab with
      | none =>
        rw [turnOf_of_none ht] at hx
        cases hx
      | some t =>
        have ne : ev ≠ .shutdown := fun h => hs (h ▸ List.mem_cons_self)
        rw [turnOf_eq ht ne] at hx
        split at hx
        · cases hx
        · next d hd =>
          split at hx
          · rw [List.mem_singleton.mp hx]
            exact act_ne_drop hd
          · cases hx
    rw [turnsOf] at hx
    cases hf : (h.step build ev).fault with
    | some f =>
      rw [hf] at hx
      exact first hx
    | none =>
      rw [hf] at hx
      rcases List.mem_append.mp hx with hx | hx
      · exact first hx
      · exact ih (fun h => hs (List.mem_cons_of_mem _ h)) hx

end Host

end TabHost
