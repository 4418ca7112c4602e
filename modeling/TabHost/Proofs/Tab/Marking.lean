import TabHost.Proofs.Tab.Ledger
import TabHost.Proofs.Tab.Surface

/-!
# The mark at a surface

An entry of a surface is marked visible or not. The surface of a tab is marked as its content
stands, and every act keeps it so if content shows what it is told (`Seat.marked_act`): a mark
is set just when content is told, a new surface is marked as content stands, and where a tab
has nothing to do but to acknowledge, content is visible and the mark says so already.
-/

set_option linter.unusedSectionVars false

namespace TabHost

variable {σ : Type} [Content σ]

/-! ## The mark at a surface -/

/-- Whether the entry of a surface is marked visible; none if there is no entry. -/
def Surfaces.mark? (s : Surfaces) (surface : SurfaceId) : Option Bool :=
  (s.entries.get? surface).map SurfaceEntry.visible

/-- What is marked visible, and can be looked up, is visible. -/
theorem Surfaces.isVisible_of_mark? {s : Surfaces} {surface : SurfaceId} {visible : Bool}
    {handle : Handle} (hm : s.mark? surface = some visible)
    (hl : s.lookup surface = some handle) : s.isVisible surface = visible := by
  unfold lookup at hl
  split at hl
  · cases hl
  · next e he =>
    rw [mark?, he] at hm
    cases hm
    split at hl
    · next alive => simp only [isVisible, he, shows, alive, Bool.and_true]
    · cases hl

theorem Surfaces.lookup_setVisible (s : Surfaces) (marked surface : SurfaceId)
    (visible : Bool) : (s.setVisible marked visible).lookup surface = s.lookup surface := by
  unfold lookup
  by_cases hk : surface = marked
  · subst hk
    rw [setVisible, Table.get?_modify_self]
    cases s.entries.get? surface <;> rfl
  · rw [setVisible, Table.get?_modify_of_ne hk]
    rfl

theorem Surfaces.mark?_setVisible {s : Surfaces} {surface : SurfaceId}
    (h : (s.mark? surface).isSome = true) (visible : Bool) :
    (s.setVisible surface visible).mark? surface = some visible := by
  rw [mark?, Option.isSome_map] at h
  obtain ⟨e, he⟩ := Option.isSome_iff_exists.mp h
  rw [mark?, setVisible, Table.get?_modify_self, he]
  rfl

namespace Seat

variable {s : Seat σ} {o : Outcome Effect (Seat σ)}

/-- The surface of a tab, if it has one, is marked as its content stands. -/
def Marked (s : Seat σ) : Prop :=
  ∀ surface, s.tab.surface = some surface →
    s.shared.surfaces.mark? surface = some (Content.isVisible s.tab.content)

/-- What comes of an act leaves the surface of the tab marked as its content stands, if
content shows what it is told. -/
theorem Repaints.marked (h : Repaints s o) (hm : s.Marked)
    (shows : Content.isVisible o.state.tab.content =
      (shown s.tab.id o.trace).getLast?.getD (Content.isVisible s.tab.content)) :
    o.state.Marked := by
  intro surface hs
  cases h with
  | keeps surface' _ surfaces told =>
    rw [surfaces, shows, told]
    exact hm surface (surface'.symm.trans hs)
  | marks visible surface' _ surfaces told =>
    have hs' : s.tab.surface = some surface := surface'.symm.trans hs
    have marked : (s.shared.surfaces.mark? surface).isSome = true := by
      rw [hm surface hs']
      rfl
    rw [surfaces, shows, told, surfaces_markSurface hs']
    exact Surfaces.mark?_setVisible marked visible
  | attaches new granted other _ free surface' _ content surfaces =>
    cases surface'.symm.trans hs
    unfold Surfaces.register? at free
    split at free
    · cases free
    cases free
    rw [surfaces, content]
    refine Surfaces.mark?_setVisible ?_ _
    rw [Surfaces.mark?, get?_dropAny_of_ne other, Table.get?_insert_self]
    rfl
  | leaves surface' =>
    rw [surface'] at hs
    cases hs

/-- An act that comes to its end leaves the surface of its tab marked as content stands. -/
theorem marked_act [Content.ShowsAsTold σ] (build : Build) {a : Act} (h : s.tab.Sound)
    (hm : s.Marked) (hf : (act build a s).fault = none) : (act build a s).state.Marked := by
  have repaints := repaints_act build a h
  cases hl : s.tab.state.isLive with
  | false =>
    intro surface hs
    have gone := h.tornDown hl
    obtain ⟨stage, ipcOpen, link, htab⟩ := ((rests_act build a hl gone).idles hl).tab
    rw [htab] at hs
    cases gone.surface.symm.trans hs
  | true =>
    cases ha : a.tearsDown with
    | false =>
      obtain ⟨b, hb⟩ := Option.isSome_iff_exists.mp (h.live hl).1
      refine repaints.marked hm ?_
      rw [(accounts_act build hb hl ha).content hf, Content.isVisible_after]
      rfl
    | true =>
      intro surface hs
      rw [(tearsDown_act build hl (h.live hl).2 ha).tab] at hs
      cases hs

/-- What is looked up for the surface of a tab stays the same as long as the tab keeps it. -/
theorem Repaints.lookup (h : Repaints s o) {surface : SurfaceId}
    (before : s.tab.surface = some surface) (after : o.state.tab.surface = some surface) :
    o.state.shared.surfaces.lookup surface = s.shared.surfaces.lookup surface := by
  cases h with
  | keeps _ _ surfaces => rw [surfaces]
  | marks visible _ _ surfaces =>
    rw [surfaces, surfaces_markSurface before, Surfaces.lookup_setVisible]
  | attaches new _ other _ _ surface' =>
    cases surface'.symm.trans after
    exact absurd before other
  | leaves surface' => cases surface'.symm.trans after

end Seat

end TabHost
