import TabHost.Proofs.Host.Step

/-!
# The roll of a host

A host keeps the ids of its tabs and the ids of those that were deleted. An event enters an id
as that of a tab, or strikes it out and notes it as that of a deleted one (`Host.RollCase`). So
no id is both, and every id that a tab was ever created under is one of the two
(`Host.enrolled_runs`), as long as the host is not shut down.
-/

set_option linter.unusedSectionVars false

namespace TabHost

namespace Table

variable {κ α : Type} [Ranked κ] [DecidableEq κ]

theorem contains_insert (t : Table κ α) (k j : κ) (a : α) :
    (t.insert k a).contains j = (decide (j = k) || t.contains j) := by
  by_cases h : j = k
  · subst h
    simp [contains]
  · simp [contains, get?_insert_of_ne h, h]

theorem contains_erase (t : Table κ α) (k j : κ) :
    (t.erase k).contains j = (decide (j ≠ k) && t.contains j) := by
  by_cases h : j = k
  · subst h
    simp [contains]
  · simp [contains, get?_erase_of_ne h, h]

end Table

namespace Host

variable {σ : Type} [Content σ] {h h' h₁ : Host σ} {tab : TabId} {ev : Event σ}

/-- Whether an id is that of a tab, or that of a deleted one. -/
def Enrolled (h : Host σ) (tab : TabId) : Prop :=
  h.tabs.contains tab = true ∨ tab ∈ h.retired

/-- What becomes of the ids of the tabs, and of those that were deleted. -/
inductive RollCase (h h' : Host σ) : Prop
  | same (hosted : ∀ tab, h'.tabs.contains tab = h.tabs.contains tab)
      (retired : h'.retired = h.retired)
  | entered (tab : TabId)
      (hosted : ∀ other, h'.tabs.contains other = (decide (other = tab) || h.tabs.contains other))
      (retired : h'.retired = h.retired.filter fun t => t ≠ tab)
  | struck (tab : TabId)
      (hosted : ∀ other, h'.tabs.contains other = (decide (other ≠ tab) && h.tabs.contains other))
      (retired : h'.retired = tab :: h.retired)

namespace RollCase

theorem refl (h : Host σ) : RollCase h h := .same (fun _ => rfl) rfl

/-- What follows on nothing new. -/
theorem after_same (hosted : ∀ tab, h₁.tabs.contains tab = h.tabs.contains tab)
    (retired : h₁.retired = h.retired) (later : RollCase h₁ h') : RollCase h h' := by
  cases later with
  | same hosted' retired' =>
    exact .same (fun tab => (hosted' tab).trans (hosted tab)) (retired'.trans retired)
  | entered tab hosted' retired' =>
    exact .entered tab (fun other => by rw [hosted', hosted]) (by rw [retired', retired])
  | struck tab hosted' retired' =>
    exact .struck tab (fun other => by rw [hosted', hosted]) (by rw [retired', retired])

/-- No id of a tab is that of a deleted one. -/
theorem disjoint (roll : RollCase h h') (hd : ∀ tab ∈ h.retired, h.tabs.contains tab = false) :
    ∀ tab ∈ h'.retired, h'.tabs.contains tab = false := by
  intro other hm
  cases roll with
  | same hosted retired =>
    rw [hosted]
    exact hd other (retired ▸ hm)
  | entered tab hosted retired =>
    rw [retired] at hm
    obtain ⟨hm, hne⟩ := List.mem_filter.mp hm
    rw [hosted, hd other hm]
    simpa using hne
  | struck tab hosted retired =>
    rw [retired] at hm
    rw [hosted]
    rcases List.mem_cons.mp hm with rfl | hm
    · simp
    · simp [hd other hm]

/-- No id is lost. -/
theorem enrolled (roll : RollCase h h') (he : h.Enrolled tab) : h'.Enrolled tab := by
  cases roll with
  | same hosted retired =>
    unfold Enrolled
    rw [hosted, retired]
    exact he
  | entered new hosted retired =>
    unfold Enrolled
    rw [hosted, retired]
    by_cases hk : tab = new
    · simp [hk]
    · exact he.imp (by simp [hk]) fun hm => List.mem_filter.mpr ⟨hm, by simpa using hk⟩
  | struck old hosted retired =>
    unfold Enrolled
    rw [hosted, retired]
    by_cases hk : tab = old
    · simp [hk]
    · exact he.imp (by simp [hk]) (List.mem_cons_of_mem old)

end RollCase

/-! ## Events -/

theorem onTab_spec (tab : TabId) (op : Operation σ) (h : Host σ) :
    (∀ other, (h.onTab tab op).state.tabs.contains other = h.tabs.contains other) ∧
      (h.onTab tab op).state.retired = h.retired := by
  cases ht : h.tabs.get? tab with
  | none =>
    rw [onTab_of_none ht]
    exact ⟨fun _ => rfl, rfl⟩
  | some t =>
    rw [onTab_of_some ht]
    refine ⟨fun other => (Table.contains_insert ..).trans ?_, rfl⟩
    by_cases hk : other = tab
    · subst hk
      simp [Table.contains, ht]
    · simp [hk]

theorem rollCase_onTab (tab : TabId) (op : Operation σ) (h : Host σ) :
    RollCase h (h.onTab tab op).state :=
  .same (onTab_spec tab op h).1 (onTab_spec tab op h).2

theorem rollCase_onHosted (build : Build) (tab : TabId) (v : Violation) (op : Operation σ)
    (h : Host σ) : RollCase h (h.onHosted build tab v op).state := by
  unfold onHosted
  split
  · exact rollCase_onTab tab op h
  · rw [Outcome.state_violation]
    exact .refl h

theorem rollCase_reap (tab : TabId) (h : Host σ) : RollCase h (h.reap tab).state := by
  unfold reap
  split
  · obtain ⟨hosted, retired⟩ := onTab_spec tab Seat.destroyWindow h
    refine .struck tab (fun other => ?_) (congrArg (tab :: ·) retired)
    exact (Table.contains_erase ..).trans (congrArg _ (hosted other))
  · exact .refl h

theorem rollCase_runTask (build : Build) (task : Task) (h : Host σ) :
    RollCase h (h.runTask build task).state := by
  cases ht : h.tabs.get? task.tab with
  | none =>
    rw [(runTask_of_none build task ht).1]
    exact .refl h
  | some t =>
    rw [runTask_of_some build task ht]
    obtain ⟨hosted, retired⟩ := onTab_spec task.tab (Seat.act build task.act) h
    cases hf : (h.onTab task.tab (Seat.act build task.act)).fault with
    | some f =>
      rw [Outcome.andThen_of_fault hf]
      exact .same hosted retired
    | none =>
      rw [Outcome.state_andThen hf]
      exact .after_same hosted retired (rollCase_reap task.tab _)

theorem rollCase_createIfNew (tab : TabId) (content : σ) (link : ParentLink) (h : Host σ) :
    RollCase h (h.createIfNew tab content link).state := by
  unfold createIfNew create?
  by_cases hc : h.tabs.contains tab = true
  · rw [if_pos hc]
    exact .refl h
  · rw [if_neg hc]
    exact .entered tab (fun other => Table.contains_insert ..) rfl

/-- What an event other than the end of all tabs does to the roll. -/
theorem rollCase_step (build : Build) (ne : ev ≠ .shutdown) (h : Host σ) :
    RollCase h (h.step build ev).state := by
  cases ev with
  | create tab content => exact rollCase_createIfNew tab content _ h
  | createOver tab content heard => exact rollCase_createIfNew tab content _ h
  | post | setClock | surfaces => exact .same (fun _ => rfl) rfl
  | runOne =>
    rw [step, runOne]
    cases hr : h.takeTask? with
    | none => exact .same (fun _ => rfl) rfl
    | some r =>
      obtain ⟨task, h₁⟩ := r
      have taken : (∀ tab, h₁.tabs.contains tab = h.tabs.contains tab) ∧
          h₁.retired = h.retired := by
        obtain ⟨r', -, heq⟩ := Option.map_eq_some_iff.mp hr
        cases heq
        exact ⟨fun _ => rfl, rfl⟩
      exact .after_same taken.1 taken.2 (rollCase_runTask build task h₁)
  | flush tab => exact rollCase_onTab tab _ h
  | addBlocker tab => exact rollCase_onHosted build tab _ _ h
  | removeBlocker tab => exact rollCase_onHosted build tab _ _ h
  | destroy tab => exact rollCase_onHosted build tab _ _ h
  | push tab e =>
    refine .same (fun other => ?_) rfl
    simp only [step, Outcome.ok, push, Table.contains, Table.get?_modify]
    split <;> simp
  | hangUp tab => exact rollCase_onTab tab _ h
  | shutdown => exact absurd rfl ne

/-! ## Deleted tabs -/

theorem retired_onHosted (build : Build) (tab : TabId) (v : Violation) (op : Operation σ)
    (h : Host σ) : (h.onHosted build tab v op).state.retired = h.retired := by
  unfold onHosted
  split
  · exact (onTab_spec tab op h).2
  · rw [Outcome.state_violation]

/-- A task notes no other tab as deleted than its own, if that was there. -/
theorem retired_runTask (build : Build) (task : Task) (h : Host σ) :
    (h.runTask build task).state.retired = h.retired ∨
      h.tabs.contains task.tab = true ∧
        (h.runTask build task).state.retired = task.tab :: h.retired := by
  cases ht : h.tabs.get? task.tab with
  | none =>
    rw [(runTask_of_none build task ht).1]
    exact Or.inl rfl
  | some t =>
    rw [runTask_of_some build task ht, Table.contains, ht]
    have acted := (onTab_spec task.tab (Seat.act build task.act) h).2
    cases hf : (h.onTab task.tab (Seat.act build task.act)).fault with
    | some f =>
      rw [Outcome.andThen_of_fault hf]
      exact Or.inl acted
    | none =>
      rw [Outcome.state_andThen hf, ← acted]
      generalize (h.onTab task.tab (Seat.act build task.act)).state = h
      unfold reap
      split
      · exact Or.inr ⟨rfl, congrArg (task.tab :: ·) (onTab_spec task.tab Seat.destroyWindow h).2⟩
      · exact Or.inl rfl

/-- An act that is done to one tab notes no other one as deleted. -/
theorem retired_deed (build : Build) {d : Deed} (deed : h.deed? ev = some d) :
    (h.step build ev).state.retired = h.retired ∨
      h.tabs.contains d.tab = true ∧ (h.step build ev).state.retired = d.tab :: h.retired := by
  cases ev with
  | runOne =>
    obtain ⟨⟨task, h'⟩, due, rfl⟩ := Option.map_eq_some_iff.mp deed
    obtain ⟨r, -, heq⟩ := Option.map_eq_some_iff.mp due
    have same : h'.tabs = h.tabs ∧ h'.retired = h.retired := by
      cases heq
      exact ⟨rfl, rfl⟩
    rw [step, runOne, due, ← same.1, ← same.2]
    exact retired_runTask build task h'
  | flush tab => exact Or.inl (onTab_spec tab _ h).2
  | hangUp tab => exact Or.inl (onTab_spec tab _ h).2
  | addBlocker | removeBlocker | destroy => exact Or.inl (retired_onHosted ..)
  | push => exact Or.inl rfl
  | _ => cases deed

theorem mem_retired_step (build : Build) (ne : ev ≠ .shutdown)
    (hm : tab ∈ (h.step build ev).state.retired) :
    tab ∈ h.retired ∨ h.tabs.contains tab = true := by
  cases deed : h.deed? ev with
  | some d =>
    rcases retired_deed build deed with same | ⟨there, noted⟩
    · exact Or.inl (same ▸ hm)
    · rw [noted] at hm
      rcases List.mem_cons.mp hm with rfl | hm
      · exact Or.inr there
      · exact Or.inl hm
  | none =>
    have fewer : ∀ {content : σ} {link : ParentLink} {new : TabId},
        tab ∈ (h.createIfNew new content link).state.retired → tab ∈ h.retired := by
      intro content link new hm
      unfold createIfNew create? at hm
      by_cases hc : h.tabs.contains new = true
      · rwa [if_pos hc] at hm
      · rw [if_neg hc] at hm
        exact (List.mem_filter.mp hm).1
    cases ev with
    | create | createOver => exact Or.inl (fewer hm)
    | post | setClock | surfaces => exact Or.inl hm
    | runOne =>
      have idle : h.takeTask? = none := Option.map_eq_none_iff.mp deed
      rw [step, runOne, idle] at hm
      exact Or.inl hm
    | shutdown => exact absurd rfl ne
    | _ => cases deed

theorem enrolled_of_created (build : Build) (hs : h.Sound) (ne : ev ≠ .shutdown)
    (hm : .created tab ∈ (h.step build ev).trace) : (h.step build ev).state.Enrolled tab := by
  cases stepCase build hs ev with
  | quiet _ _ _ trace =>
    rw [trace] at hm
    cases hm
  | created tab' content link _ _ _ _ state =>
    rw [state] at hm ⊢
    cases List.mem_singleton.mp hm
    exact Or.inl ((Table.contains_insert ..).trans (by simp))
  | acted d t _ htab _ acts =>
    obtain ⟨hsound, hname⟩ := hs _ _ htab
    rw [acts.trace] at hm
    have own := (Seat.own_act build d.act (s := { tab := t, shared := d.around })
      hsound hname).2 _ hm
    cases own
  | shut event => exact absurd event ne

/-- Only a new tab enters its id. -/
theorem created_of_enrolled (build : Build) (hs : h.Sound) (ne : ev ≠ .shutdown)
    (he : (h.step build ev).state.Enrolled tab) :
    h.Enrolled tab ∨ .created tab ∈ (h.step build ev).trace := by
  rcases he with there | gone
  · cases stepCase build hs ev with
    | quiet _ _ tabs =>
      rw [tabs] at there
      exact Or.inl (Or.inl there)
    | created new content link _ _ _ _ state =>
      rw [state] at there ⊢
      have there : (decide (tab = new) || h.tabs.contains tab) = true :=
        (Table.contains_insert ..).symm.trans there
      by_cases hk : tab = new
      · exact Or.inr (hk ▸ List.mem_singleton_self _)
      · exact Or.inl (Or.inl (by simpa [hk] using there))
    | acted d t _ htab _ acts =>
      by_cases hk : tab = d.tab
      · rw [hk, Enrolled, Table.contains, htab]
        exact Or.inl (Or.inl rfl)
      · rw [Table.contains, acts.others tab hk] at there
        exact Or.inl (Or.inl there)
    | shut event => exact absurd event ne
  · exact Or.inl (mem_retired_step build ne gone).symm

/-! ## Runs -/

/-- Every id that a tab was created under is that of a tab, or of a deleted one. -/
theorem enrolled_runs (build : Build) {evs : List (Event σ)} (hs : h.Sound)
    (open' : .shutdown ∉ evs)
    (he : h.Enrolled tab ∨ .created tab ∈ (h.runs build evs).trace) :
    (h.runs build evs).state.Enrolled tab := by
  induction evs generalizing h with
  | nil => exact he.resolve_right List.not_mem_nil
  | cons ev rest ih =>
    have ne : ev ≠ .shutdown := fun h => open' (h ▸ List.mem_cons_self)
    have kept : h.Enrolled tab → (h.step build ev).state.Enrolled tab :=
      (rollCase_step build ne h).enrolled
    have created : .created tab ∈ (h.step build ev).trace →
        (h.step build ev).state.Enrolled tab := enrolled_of_created build hs ne
    cases hf : (h.step build ev).fault with
    | some f =>
      rw [runs, Outcome.andThen_of_fault hf] at he ⊢
      exact he.elim kept created
    | none =>
      rw [runs, Outcome.trace_andThen hf] at he
      rw [runs, Outcome.state_andThen hf]
      refine ih (sound_step build hs ev) (fun h => open' (List.mem_cons_of_mem _ h)) ?_
      rcases he with he | hm
      · exact Or.inl (kept he)
      · exact (List.mem_append.mp hm).imp_left created

/-- No other id is. -/
theorem created_of_enrolled_runs (build : Build) {evs : List (Event σ)} (hs : h.Sound)
    (open' : .shutdown ∉ evs) (fault : (h.runs build evs).fault = none)
    (he : (h.runs build evs).state.Enrolled tab) :
    h.Enrolled tab ∨ .created tab ∈ (h.runs build evs).trace := by
  induction evs generalizing h with
  | nil => exact Or.inl he
  | cons ev rest ih =>
    have ne : ev ≠ .shutdown := fun h => open' (h ▸ List.mem_cons_self)
    obtain ⟨first, later⟩ := Outcome.fault_andThen_eq_none_iff.mp fault
    rw [runs, Outcome.state_andThen first] at he
    rw [runs, Outcome.trace_andThen first, List.mem_append]
    rcases ih (sound_step build hs ev) (fun h => open' (List.mem_cons_of_mem _ h)) later he with
      before | created
    · exact (created_of_enrolled build hs ne before).imp_right Or.inl
    · exact Or.inr (Or.inr created)

theorem not_enrolled_new (settings : Settings) (clock : Duration) (surfaces : Surfaces)
    (tab : TabId) : ¬(new settings clock surfaces : Host σ).Enrolled tab := by
  rintro (there | deleted)
  · cases there
  · cases deleted

/-- The roll of a host that had none holds the ids that tabs were created under. -/
theorem enrolled_runs_iff (build : Build) {evs : List (Event σ)} (hs : h.Sound)
    (open' : .shutdown ∉ evs) (fault : (h.runs build evs).fault = none) (he : ¬h.Enrolled tab) :
    (h.runs build evs).state.Enrolled tab ↔ .created tab ∈ (h.runs build evs).trace :=
  ⟨fun enrolled => (created_of_enrolled_runs build hs open' fault enrolled).resolve_left he,
    fun created => enrolled_runs build hs open' (Or.inr created)⟩

end Host

end TabHost
