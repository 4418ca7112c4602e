import TabHost.Proofs.Host.History
import TabHost.Proofs.Host.Ownership
import TabHost.Proofs.Host.Roll

/-!
# Tabs do not interfere

Whatever is done to one tab of a host, the other tabs stay as they are, no content but that of
the tab is called, and no other tab speaks (`Host.spares_others`). All that tabs contend for are
the surfaces. An act spares the entry of every surface that its tab does not hold; and no tab
holds a surface of another one, for every surface that a tab holds is registered to it
(`Host.Housed`). Every event of the host keeps it so (`Host.housed_step`), and others do unless
they take a surface away from its tab (`Host.ReachableUndisturbed`).
-/

set_option linter.unusedSectionVars false

namespace TabHost

variable {σ : Type} [Content σ]

/-! ## The surface of a tab -/

namespace Surfaces

/-- Whether a surface is registered to a tab. -/
def IsOf (s : Surfaces) (surface : SurfaceId) (tab : TabId) : Prop :=
  ∃ e, s.entries.get? surface = some e ∧ e.handle.tab = tab

variable {s : Surfaces} {surface other : SurfaceId} {tab : TabId}

theorem IsOf.unique {tab' : TabId} (h : s.IsOf surface tab) (h' : s.IsOf surface tab') :
    tab = tab' := by
  obtain ⟨e, he, rfl⟩ := h
  obtain ⟨e', he', rfl⟩ := h'
  cases he.symm.trans he'
  rfl

/-- Marking a surface leaves it to its tab. -/
theorem IsOf.setVisible (h : s.IsOf surface tab) (visible : Bool) :
    (s.setVisible other visible).IsOf surface tab := by
  obtain ⟨e, he, rfl⟩ := h
  by_cases hk : surface = other
  · subst hk
    refine ⟨{ e with visible := visible }, ?_, rfl⟩
    simp [Surfaces.setVisible, he]
  · exact ⟨e, (Table.get?_modify_of_ne hk _ _).trans he, rfl⟩

/-- A surface that is registered is registered to the tab of its handle. -/
theorem isOf_register? {handle : Handle} {granted : Surfaces}
    (h : s.register? surface handle = some granted) : granted.IsOf surface handle.tab := by
  unfold register? at h
  split at h
  · cases h
  · cases h
    exact ⟨_, Table.get?_insert_self _ _ _, rfl⟩

end Surfaces

namespace Seat

variable {s : Seat σ} {o : Outcome Effect (Seat σ)}

/-- The surface that a tab holds after an act is registered to it, if the one that it held
before was. -/
theorem Repaints.isOf (h : Repaints s o)
    (hs : ∀ surface, s.tab.surface = some surface →
      s.shared.surfaces.IsOf surface s.tab.id) :
    ∀ surface, o.state.tab.surface = some surface →
      o.state.shared.surfaces.IsOf surface s.tab.id := by
  intro surface hsurface
  cases h with
  | keeps same _ surfaces =>
    rw [surfaces]
    exact hs surface (same ▸ hsurface)
  | marks visible same _ surfaces =>
    have own : s.tab.surface = some surface := same ▸ hsurface
    rw [surfaces, surfaces_markSurface own]
    exact (hs surface own).setVisible visible
  | attaches new granted other _ free holds _ _ surfaces =>
    rw [holds] at hsurface
    cases hsurface
    obtain ⟨e, he, htab⟩ := Surfaces.isOf_register? free
    rw [surfaces]
    exact Surfaces.IsOf.setVisible ⟨e, (get?_dropAny_of_ne other _).trans he, htab⟩ _
  | leaves gone =>
    rw [gone] at hsurface
    cases hsurface

end Seat

namespace Host

variable {h : Host σ} {ev : Event σ}

/-- Every surface that a tab holds is registered to it. -/
def Housed (h : Host σ) : Prop :=
  ∀ tab t surface, h.tabs.get? tab = some t → t.surface = some surface →
    h.shared.surfaces.IsOf surface tab

/-- A surface of one tab is none of another one. -/
theorem Housed.surface_ne (hh : h.Housed) {tab other : TabId} {t u : Tab σ}
    {surface : SurfaceId} (ht : h.tabs.get? tab = some t) (hu : h.tabs.get? other = some u)
    (hs : u.surface = some surface) (hne : other ≠ tab) : t.surface ≠ some surface :=
  fun hs' => hne ((hh other u surface hu hs).unique (hh tab t surface ht hs'))

/-- No event of the host takes a surface away from a tab that holds it. -/
theorem housed_step (build : Build) (hs : h.Sound) (hh : h.Housed)
    (alone : ev.isForeign = false) : (h.step build ev).state.Housed := by
  intro tab t' surface ht' hsurface
  cases stepCase build hs ev with
  | quiet _ _ tabs _ surfaces =>
    rw [tabs] at ht'
    rw [surfaces alone]
    exact hh tab t' surface ht' hsurface
  | created new content link _ _ _ _ state =>
    rw [state] at ht' ⊢
    by_cases hk : tab = new
    · subst hk
      cases (Table.get?_insert_self _ _ _).symm.trans ht'
      cases hsurface
    · exact hh tab t' surface ((Table.get?_insert_of_ne hk _ _).symm.trans ht') hsurface
  | acted d t deed htab around acts =>
    obtain ⟨sound, name⟩ := hs d.tab t htab
    have repaints := Seat.repaints_act build d.act (s := { tab := t, shared := d.around }) sound
    rw [acts.shared]
    by_cases hk : tab = d.tab
    · subst hk
      rcases acts.own with own | ⟨gone, -⟩
      · cases own.symm.trans ht'
        have id : t.id = d.tab := name.id
        have before : ∀ surface, t.surface = some surface →
            d.around.surfaces.IsOf surface t.id := by
          intro surface hs'
          rw [around, id]
          exact hh d.tab t surface htab hs'
        have after := repaints.isOf before surface hsurface
        rwa [show ({ tab := t, shared := d.around } : Seat σ).tab.id = d.tab from id] at after
      · cases gone.symm.trans ht'
    · rw [acts.others tab hk] at ht'
      obtain ⟨e, he, rfl⟩ := hh tab t' surface ht' hsurface
      have other : t.surface ≠ some surface := hh.surface_ne htab ht' hsurface hk
      exact ⟨e, repaints.spares other (by rw [around]; exact he), rfl⟩
  | shut _ shuts =>
    rw [shuts.tabs] at ht'
    cases ht'

/-- A change of the surfaces that leaves those that tabs hold to their tabs. -/
def LeavesToTabs (f : Surfaces → Surfaces) (h : Host σ) : Prop :=
  ∀ tab t surface, h.tabs.get? tab = some t → t.surface = some surface →
    h.shared.surfaces.IsOf surface tab → (f h.shared.surfaces).IsOf surface tab

/-- A host that operations lead to, each of them to its end, while others that change the
surfaces take none away from a tab that holds it. -/
inductive ReachableUndisturbed (build : Build) : Host σ → Prop
  | new (settings : Settings) (clock : Duration) (surfaces : Surfaces) :
      ReachableUndisturbed build (new settings clock surfaces)
  | perform {h : Host σ} (hr : ReachableUndisturbed build h) (op : Op σ)
      (alone : op.isForeign = false) (hf : (h.perform build op).fault = none) :
      ReachableUndisturbed build (h.perform build op).state
  | change {h : Host σ} (hr : ReachableUndisturbed build h) (f : Surfaces → Surfaces)
      (leaves : h.LeavesToTabs f) : ReachableUndisturbed build (h.onSurfaces f)

theorem ReachableUndisturbed.reachable {build : Build} (hr : h.ReachableUndisturbed build) :
    h.Reachable build := by
  induction hr with
  | new settings clock surfaces => exact .new settings clock surfaces
  | perform _ op _ hf ih => exact ih.perform op hf
  | change _ f _ ih => exact ih.perform (.event (.surfaces f)) rfl

theorem ReachableUndisturbed.housed {build : Build} (hr : h.ReachableUndisturbed build) :
    h.Housed := by
  induction hr with
  | new => exact fun tab t surface ht => by cases ht
  | @perform h hr op alone hf ih =>
    rw [perform_eq_runs] at hf ⊢
    refine (runs_preserves (P := fun h => h.Sound ∧ h.Housed) ?_ ⟨hr.reachable.sound, ih⟩ hf).2
    rintro h ev he ⟨hs, hh⟩ -
    refine ⟨sound_step build hs ev, housed_step build hs hh ?_⟩
    rcases mem_eventsOf he with rfl | rfl | ⟨tab, rfl⟩
    · exact alone
    · rfl
    · rfl
  | change _ f leaves ih =>
    exact fun tab t surface ht hs => leaves tab t surface ht hs (ih tab t surface ht hs)

/-- Those who only hold on to handles take no surface away. -/
theorem ReachableAlone.undisturbed {build : Build} {held : List Nat}
    (hr : h.ReachableAlone build held) : h.ReachableUndisturbed build := by
  induction hr with
  | new settings clock => exact .new settings clock {}
  | perform _ op alone hf ih => exact ih.perform op alone hf
  | hold _ handle _ ih => exact ih.change (·.retain handle) fun _ _ _ _ _ registered => registered
  | letGo _ handle _ ih => exact ih.change (·.release handle) fun _ _ _ _ _ registered => registered

/-! ## The other tabs -/

/-- What an act that is done to one tab leaves to all others. -/
structure SparesOthers (h : Host σ) (tab : TabId) (o : Outcome Effect (Host σ)) : Prop where
  /-- They are there or not, as before, and in the same state. -/
  tabs : ∀ other, other ≠ tab → o.state.tabs.get? other = h.tabs.get? other
  retired : ∀ other, other ≠ tab → (other ∈ o.state.retired ↔ other ∈ h.retired)
  calls : ∀ other, other ≠ tab → callsOf other o.trace = []
  messages : ∀ other, other ≠ tab → saidBy other o.trace = []
  /-- Whatever is registered for a surface that the tab does not hold. -/
  entries : ∀ surface e, h.shared.surfaces.entries.get? surface = some e →
    (∀ t, h.tabs.get? tab = some t → t.surface ≠ some surface) →
    o.state.shared.surfaces.entries.get? surface = some e

/-- An act that is done to one tab spares all others, and what they hold. -/
theorem sparesOthers_of_deed (build : Build) (hs : h.Sound) {d : Deed}
    (deed : h.deed? ev = some d) : h.SparesOthers d.tab (h.step build ev) := by
  have native : ev.isForeign = false := by
    cases ev with
    | surfaces => cases deed
    | _ => rfl
  have retired : ∀ other, other ≠ d.tab →
      (other ∈ (h.step build ev).state.retired ↔ other ∈ h.retired) := by
    intro other hne
    rcases retired_deed build deed with same | ⟨-, noted⟩
    · rw [same]
    · rw [noted, List.mem_cons]
      exact or_iff_right hne
  cases stepCase build hs ev with
  | quiet _ _ tabs trace surfaces =>
    refine ⟨fun other _ => by rw [tabs], retired, fun _ _ => by rw [trace]; rfl,
      fun _ _ => by rw [trace]; rfl, fun surface e he _ => ?_⟩
    rw [surfaces native]
    exact he
  | created _ _ _ _ _ event =>
    rcases event with ⟨c, rfl⟩ | ⟨c, heard, rfl⟩ <;> cases deed
  | acted d' t deed' htab around acts =>
    cases deed.symm.trans deed'
    obtain ⟨sound, name⟩ := hs d.tab t htab
    have own := (Seat.own_act build d.act (s := { tab := t, shared := d.around }) sound name).2
    rw [← acts.trace] at own
    refine ⟨acts.others, retired, fun other hne => ?_, fun other hne => ?_,
      fun surface e he free => ?_⟩
    · rw [← callsOf_filter_isOf, filter_isOf_of_ne hne own]
      rfl
    · rw [← saidBy_filter_isOf, filter_isOf_of_ne hne own]
      rfl
    · have repaints := Seat.repaints_act build d.act (s := { tab := t, shared := d.around }) sound
      rw [acts.shared]
      exact repaints.spares (free t htab) (by rw [around]; exact he)
  | shut event =>
    subst event
    cases deed

/-- An act that is done to one tab spares all others: they stay as they are, and nothing comes
of them. If nobody else took a surface away from its tab, then the surface of every other tab is
registered to it, visible or not as before. -/
theorem spares_others (build : Build) (hr : h.Reachable build) {d : Deed}
    (deed : h.deed? ev = some d) :
    h.SparesOthers d.tab (h.step build ev) ∧
    (h.ReachableUndisturbed build → ∀ other t surface, other ≠ d.tab →
      h.tabs.get? other = some t → t.surface = some surface →
      ∃ e, h.shared.surfaces.entries.get? surface = some e ∧ e.handle.tab = other ∧
        (h.step build ev).state.shared.surfaces.entries.get? surface = some e) := by
  have spares := sparesOthers_of_deed build hr.sound deed
  refine ⟨spares, fun undisturbed other u surface hne hu hsurface => ?_⟩
  have housed := undisturbed.housed
  obtain ⟨e, he, htab⟩ := housed other u surface hu hsurface
  exact ⟨e, he, htab, spares.entries surface e he fun t ht =>
    housed.surface_ne ht hu hsurface hne⟩

/-- A tab that is told to paint into the surface of another one does not disturb it. -/
theorem spares_others_contended :
    (contended.step .checked .runOne).state.tabs.get? { value := 7 } =
        contended.tabs.get? { value := 7 } ∧
      ∃ e, (contended.step .checked .runOne).state.shared.surfaces.entries.get?
          { value := 1 } = some e ∧ e.handle.tab = { value := 7 } := by
  have undisturbed := reachableAlone_contended.undisturbed
  have due : contended.deed? .runOne = some
      { tab := { value := 8 }
        act := .request { tab := { value := 8 }, request := .initRendering { value := 1 } }
        around := contended.shared } := rfl
  obtain ⟨spares, registered⟩ := spares_others .checked undisturbed.reachable due
  obtain ⟨e, -, owner, after⟩ := registered undisturbed { value := 7 } _ { value := 1 }
    (by decide) rfl rfl
  exact ⟨spares.tabs { value := 7 } (by decide), e, after, owner⟩

end Host

end TabHost
