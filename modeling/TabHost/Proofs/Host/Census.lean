import TabHost.Proofs.Host.Ownership
import TabHost.Proofs.Render.Registry
import TabHost.Proofs.Tab.Marking

/-!
# The visible surfaces

Whether a tab is visible is noted twice, by its content and by the mark at its surface. The
two agree as long as the host has its surfaces to itself and content shows what it is told
(`Host.marked_step`): what is done to one tab keeps them in step (`Seat.marked_act`) and
spares the marks of all others. So the visible surfaces are those of the tabs whose content
is visible (`Host.visible_census`).
-/

set_option linter.unusedSectionVars false

namespace TabHost

variable {σ : Type} [Content σ]

namespace Host

/-- The surface of every tab is marked as its content stands. -/
def Marked (h : Host σ) : Prop :=
  ∀ tab t surface, h.tabs.get? tab = some t → t.surface = some surface →
    h.shared.surfaces.mark? surface = some (Content.isVisible t.content)

theorem marked_step [Content.ShowsAsTold σ] (build : Build) {held : List Nat} {h : Host σ}
    (ht : h.Tenanted held) (hm : h.Marked) {ev : Event σ} (alone : ev.isForeign = false)
    (hf : (h.step build ev).fault = none) : (h.step build ev).state.Marked := by
  intro tab t' surface ht' hs
  cases tabCase build ht.sound ht' with
  | created content link _ _ state =>
    rw [state] at hs
    cases hs
  | spared ne before deed =>
    rw [Surfaces.mark?, spares_step build ht alone ne before hs deed]
    exact hm tab t' surface before hs
  | acted d t _ _ before around fault shared state =>
    have was : ({ tab := t, shared := d.around } : Seat σ).Marked := by
      intro surface hs
      rw [around]
      exact hm tab t surface before hs
    rw [shared, state]
    rw [state] at hs
    exact Seat.marked_act build (ht.sound tab t before).1 was (fault ▸ hf) surface hs

theorem ReachableAlone.marked [Content.ShowsAsTold σ] {build : Build} {h : Host σ}
    {held : List Nat} (hr : h.ReachableAlone build held) : h.Marked := by
  have both : h.Tenanted held ∧ h.Marked := by
    refine ReachableAlone.induct (P := fun h held => h.Tenanted held ∧ h.Marked) ?_ ?_ ?_ ?_ hr
    · intro settings clock
      exact ⟨(ReachableAlone.new settings clock : ReachableAlone build _ _).tenanted,
        fun tab t surface ht => by cases ht⟩
    · intro h held ev alone hp hf
      exact ⟨tenanted_step build hp.1 alone hf, marked_step build hp.1 hp.2 alone hf⟩
    · intro h held handle hp found
      exact ⟨hp.1.retain found, hp.2⟩
    · intro h held handle hp owed
      exact ⟨hp.1.release owed, hp.2⟩
  exact both.2

/-- A surface of a tab is visible if it is marked so, for the tab keeps its handle alive. -/
theorem Tenanted.isVisible_of_mark? {held : List Nat} {h : Host σ} (ht : h.Tenanted held)
    {tab : TabId} {t : Tab σ} {surface : SurfaceId} {visible : Bool}
    (htab : h.tabs.get? tab = some t) (hs : t.surface = some surface)
    (hm : h.shared.surfaces.mark? surface = some visible) :
    h.shared.surfaces.isVisible surface = visible := by
  obtain ⟨handle, -, rfl, hn⟩ := ht.handle_of_surface htab hs
  exact Surfaces.isVisible_of_mark? hm (ht.tenancy.lookup_of_tenant hn)

/-- The visible surfaces ascend, and are those of the live tabs whose content is visible; for
every tab with a surface, the mark at it says whether content is visible. -/
theorem visible_census [Content.ShowsAsTold σ] (build : Build) {h : Host σ} {held : List Nat}
    (hr : h.ReachableAlone build held) :
    h.shared.surfaces.visible.Pairwise (fun a b => a.value < b.value) ∧
    (∀ surface, surface ∈ h.shared.surfaces.visible ↔
      ∃ tab t, h.tabs.get? tab = some t ∧ t.state.isLive = true ∧ t.surface = some surface ∧
        Content.isVisible t.content = true) ∧
    ∀ tab t surface, h.tabs.get? tab = some t → t.surface = some surface →
      h.shared.surfaces.mark? surface = some (Content.isVisible t.content) ∧
        h.shared.surfaces.isVisible surface = Content.isVisible t.content := by
  have ht := hr.tenanted
  have hm := hr.marked
  have both : ∀ tab t surface, h.tabs.get? tab = some t → t.surface = some surface →
      h.shared.surfaces.mark? surface = some (Content.isVisible t.content) ∧
        h.shared.surfaces.isVisible surface = Content.isVisible t.content := by
    intro tab t surface htab hs
    have marked := hm tab t surface htab hs
    exact ⟨marked, ht.isVisible_of_mark? htab hs marked⟩
  refine ⟨h.shared.surfaces.pairwise_visible, ?_, both⟩
  intro surface
  rw [Surfaces.mem_visible_iff]
  constructor
  · intro hv
    -- what is visible is registered, so a tab holds it
    have registered : surface ∈ h.shared.surfaces.entries.keys := by
      rw [Table.mem_keys_iff]
      unfold Surfaces.isVisible at hv
      split at hv
      · cases hv
      · next e he =>
        rw [he]
        rfl
    obtain ⟨tab, t, htab, hs⟩ := ht.mem_keys_iff.mp registered
    have live : t.state.isLive = true := by
      by_contra hdead
      have gone := (ht.sound tab t htab).1.tornDown (by simpa using hdead)
      cases gone.surface.symm.trans hs
    exact ⟨tab, t, htab, live, hs, (both tab t surface htab hs).2.symm.trans hv⟩
  · rintro ⟨tab, t, htab, -, hs, hvisible⟩
    exact (both tab t surface htab hs).2.trans hvisible

/-- The two tabs of `contended`, when the first one renders. -/
def rendering : Host Headless :=
  (contended.performs .checked
    [.runUntilIdle, .event (.post
      { tab := { value := 7 }, request := .setRenderState true false { value := 1 } }),
      .event .runOne]).state

theorem reachableAlone_rendering : rendering.ReachableAlone .checked [] :=
  reachableAlone_contended.performs (by simp [Op.isForeign, Event.isForeign]) (by rfl)

/-- The surface of the first tab is visible then, and no other. -/
theorem visible_census_rendering :
    rendering.shared.surfaces.visible = [{ value := 1 }] ∧
    ∃ tab t, rendering.tabs.get? tab = some t ∧ t.state.isLive = true ∧
      t.surface = some { value := 1 } ∧ Content.isVisible t.content = true := by
  have visible : rendering.shared.surfaces.visible = [{ value := 1 }] := by rfl
  refine ⟨visible, ?_⟩
  have census := visible_census .checked reachableAlone_rendering
  exact (census.2.1 { value := 1 }).mp (by rw [visible]; exact List.mem_singleton_self _)

end Host

end TabHost
