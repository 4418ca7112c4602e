import TabHost.Content.Headless
import TabHost.Proofs.Host.Tenancy

/-!
# Who owns the surfaces

The surfaces that a host with its surfaces to itself has registered are those of its tabs,
one for one: each is registered with the handle of its own tab, and a tab that is not live
has none (`Host.surfaces_owned`). Whatever is done to a tab spares the surfaces of the others
(`Host.spares_step`), and a surface that is taken is not given to another tab
(`Host.rejects_step`).
-/

set_option linter.unusedSectionVars false

namespace TabHost

variable {σ : Type} [Content σ]

namespace Host

/-- Every registered surface is of one tab, and is registered with what the tab holds. -/
structure OwnsSurfaces (h : Host σ) : Prop where
  /-- A tab holds a handle just if it holds a surface. -/
  together : ∀ tab t, h.tabs.get? tab = some t → t.handle.isSome = t.surface.isSome
  /-- A tab that is not live holds neither. -/
  live : ∀ tab t, h.tabs.get? tab = some t → t.state.isLive = false →
    t.surface = none ∧ t.handle = none
  /-- Looking a surface up finds what its tab holds. -/
  found : ∀ tab t surface, h.tabs.get? tab = some t → t.surface = some surface →
    ∃ handle, h.shared.surfaces.lookup surface = some handle ∧ t.handle = some handle ∧
      handle.tab = tab ∧ handle.surface = surface
  /-- No two tabs hold the same surface. -/
  exclusive : ∀ tab tab' t t' surface, h.tabs.get? tab = some t → h.tabs.get? tab' = some t' →
    t.surface = some surface → t'.surface = some surface → tab = tab'
  /-- A surface that no tab holds is not registered. -/
  vacant : ∀ surface, (∀ tab t, h.tabs.get? tab = some t → t.surface ≠ some surface) →
    h.shared.surfaces.isOccupied surface = false ∧ h.shared.surfaces.lookup surface = none
  /-- The registered surfaces are those of the tabs, one for one. -/
  registered : h.shared.surfaces.entries.keys.Perm (h.tabs.values.filterMap Tab.surface)
  size : h.shared.surfaces.size = h.tabs.values.countP fun t => t.surface.isSome

namespace Tenanted

variable {h : Host σ} {held : List Nat} {tab : TabId} {t : Tab σ} {surface : SurfaceId}

theorem handle_of_surface (ht : h.Tenanted held) (htab : h.tabs.get? tab = some t)
    (hs : t.surface = some surface) :
    ∃ handle, t.handle = some handle ∧ handle.surface = surface ∧
      h.tenant tab = some handle := by
  rw [ht.attached tab t htab] at hs
  obtain ⟨handle, hh, hsurface⟩ := Option.map_eq_some_iff.mp hs
  exact ⟨handle, hh, hsurface, (tenant_of_some htab).trans hh⟩

theorem tab_of_tenant (ht : h.Tenanted held) {handle : Handle}
    (hn : h.tenant tab = some handle) :
    ∃ t, h.tabs.get? tab = some t ∧ t.surface = some handle.surface := by
  obtain ⟨t, htab, hh⟩ := Option.bind_eq_some_iff.mp hn
  refine ⟨t, htab, ?_⟩
  rw [ht.attached tab t htab, hh]
  rfl

theorem exclusive (ht : h.Tenanted held) {tab' : TabId} {t' : Tab σ}
    (htab : h.tabs.get? tab = some t) (htab' : h.tabs.get? tab' = some t')
    (hs : t.surface = some surface) (hs' : t'.surface = some surface) : tab = tab' := by
  obtain ⟨handle, -, hsurface, hn⟩ := ht.handle_of_surface htab hs
  obtain ⟨handle', -, hsurface', hn'⟩ := ht.handle_of_surface htab' hs'
  exact ht.tenancy.surface_injective hn hn' (hsurface.trans hsurface'.symm)

/-- A surface is registered just if a tab holds it. -/
theorem mem_keys_iff (ht : h.Tenanted held) : surface ∈ h.shared.surfaces.entries.keys ↔
    ∃ tab t, h.tabs.get? tab = some t ∧ t.surface = some surface := by
  rw [Table.mem_keys_iff]
  constructor
  · intro hm
    obtain ⟨e, he⟩ := Option.isSome_iff_exists.mp hm
    obtain ⟨hs, hn⟩ := ht.tenancy.owned surface e he
    obtain ⟨t, htab, hsurface⟩ := ht.tab_of_tenant hn
    exact ⟨_, t, htab, hsurface.trans (congrArg some hs)⟩
  · rintro ⟨tab, t, htab, hs⟩
    obtain ⟨handle, -, rfl, hn⟩ := ht.handle_of_surface htab hs
    obtain ⟨-, visible, he⟩ := ht.tenancy.registered tab handle hn
    rw [he]
    rfl

/-- Tabs are listed with their surfaces once. -/
theorem nodup_surfaces (ht : h.Tenanted held) :
    (h.tabs.values.filterMap Tab.surface).Nodup := by
  refine List.pairwise_filterMap.mpr (List.pairwise_map.mpr ?_)
  refine h.tabs.ascending.imp_of_mem ?_
  intro a b ha hb hlt surface hs surface' hs' heq
  have same : a.1 = b.1 := ht.exclusive (Table.mem_entries_iff.mp ha) (Table.mem_entries_iff.mp hb)
    hs (heq ▸ hs')
  rw [same] at hlt
  exact Nat.lt_irrefl _ hlt

theorem perm_keys (ht : h.Tenanted held) :
    h.shared.surfaces.entries.keys.Perm (h.tabs.values.filterMap Tab.surface) := by
  refine (List.perm_ext_iff_of_nodup (Table.nodup_keys _) ht.nodup_surfaces).mpr ?_
  intro surface
  rw [ht.mem_keys_iff, List.mem_filterMap]
  constructor
  · rintro ⟨tab, t, htab, hs⟩
    exact ⟨t, List.mem_map.mpr ⟨_, Table.mem_entries_iff.mpr htab, rfl⟩, hs⟩
  · rintro ⟨t, hm, hs⟩
    obtain ⟨⟨tab, t'⟩, hentry, rfl⟩ := List.mem_map.mp hm
    exact ⟨tab, t', Table.mem_entries_iff.mp hentry, hs⟩

theorem ownsSurfaces (ht : h.Tenanted held) : h.OwnsSurfaces := by
  refine ⟨?_, ?_, ?_, ?_, ?_, ht.perm_keys, ?_⟩
  · intro tab t htab
    rw [ht.attached tab t htab, Option.isSome_map]
  · intro tab t htab hdead
    have gone := (ht.sound tab t htab).1.tornDown hdead
    exact ⟨gone.surface, gone.handle⟩
  · intro tab t surface htab hs
    obtain ⟨handle, hh, rfl, hn⟩ := ht.handle_of_surface htab hs
    have htab' := (ht.tenancy.registered tab handle hn).1
    exact ⟨handle, ht.tenancy.lookup_of_tenant hn, hh, htab', rfl⟩
  · intro tab tab' t t' surface htab htab' hs hs'
    exact ht.exclusive htab htab' hs hs'
  · intro surface hv
    have free : h.shared.surfaces.entries.get? surface = none := by
      refine ht.tenancy.get?_of_vacant ?_
      rintro tab handle hn rfl
      obtain ⟨t, htab, hs⟩ := ht.tab_of_tenant hn
      exact hv tab t htab hs
    refine ⟨?_, ?_⟩
    · rw [Surfaces.isOccupied, Table.contains, free]
      rfl
    · rw [Surfaces.lookup, free]
  · have size : h.shared.surfaces.size = h.shared.surfaces.entries.keys.length := by
      rw [Table.keys, List.length_map]
      rfl
    rw [size, ht.perm_keys.length_eq, List.length_filterMap_eq_countP]

end Tenanted

/-- What an event does to a tab spares the entries of all others. -/
theorem spares_step (build : Build) {held : List Nat} {h : Host σ} (ht : h.Tenanted held)
    {ev : Event σ} (alone : ev.isForeign = false) (ne : ev ≠ .shutdown) {tab : TabId} {t : Tab σ}
    {surface : SurfaceId} (htab : h.tabs.get? tab = some t) (hs : t.surface = some surface)
    (hd : ∀ d, h.deed? ev = some d → d.tab ≠ tab) :
    (h.step build ev).state.shared.surfaces.entries.get? surface =
      h.shared.surfaces.entries.get? surface := by
  cases stepCase build ht.sound ev with
  | quiet _ _ _ _ surfaces => rw [surfaces alone]
  | created _ _ _ _ _ _ _ state =>
    rw [state]
    rfl
  | acted d t' deed htab' around acts =>
    have hsound := (ht.sound d.tab t' htab').1
    have repaints : Seat.Repaints { tab := t', shared := d.around } _ :=
      Seat.repaints_act build d.act hsound
    have other : t'.surface ≠ some surface :=
      fun hs' => hd d deed (ht.exclusive htab' htab hs' hs)
    obtain ⟨e, he⟩ := Option.isSome_iff_exists.mp
      (Table.mem_keys_iff.mp (ht.mem_keys_iff.mpr ⟨tab, t, htab, hs⟩))
    rw [acts.shared, he]
    exact repaints.spares other (by rw [around]; exact he)
  | shut event => exact absurd event ne

/-- A tab that is told to paint into a taken surface does nothing. -/
theorem handle_of_taken (build : Build) {e : Envelope} {surface : SurfaceId} {s : Seat σ}
    (hr : e.request = .initRendering surface) (other : s.tab.surface ≠ some surface)
    (taken : s.shared.surfaces.entries.contains surface = true) :
    (Seat.handle build e s).state = s ∧ (Seat.handle build e s).trace = [] := by
  unfold Seat.handle
  split
  · rw [Seat.handleLive, hr]
    simp [Seat.initRendering, other, Surfaces.register?, Surfaces.issue, taken, Outcome.ok]
  · unfold Seat.handleDying
    rw [hr]
    cases s.tab.state <;> simp

/-- A request of which nothing comes for its tab leaves the host alone. -/
theorem runTask_of_still (build : Build) {e : Envelope} {h : Host σ} {t : Tab σ}
    (ht : h.tabs.get? e.tab = some t) (alive : t.state ≠ .deleted)
    (still : (Seat.handle build e { tab := t, shared := h.shared }).state =
        { tab := t, shared := h.shared } ∧
      (Seat.handle build e { tab := t, shared := h.shared }).trace = []) :
    (h.runTask build (.deliver e)).state = h ∧ (h.runTask build (.deliver e)).trace = [] := by
  have notDue : h.isReapable e.tab = false := by
    rw [isReapable, ht]
    simpa using alive
  have handled : (h.onTab e.tab (Seat.handle build e)).state = h := by
    rw [onTab_of_some ht, Outcome.state_map, still.1, Table.insert_of_get?_eq_some ht]
  have silent : (h.onTab e.tab (Seat.handle build e)).trace = [] := by
    rw [onTab_of_some ht, Outcome.trace_map]
    exact still.2
  rw [runTask_of_some build (.deliver e) ht]
  show ((h.onTab e.tab (Seat.handle build e)).andThen (reap e.tab)).state = h ∧
    ((h.onTab e.tab (Seat.handle build e)).andThen (reap e.tab)).trace = []
  cases hf : (h.onTab e.tab (Seat.handle build e)).fault with
  | some f =>
    rw [Outcome.andThen_of_fault hf]
    exact ⟨handled, silent⟩
  | none =>
    rw [Outcome.state_andThen hf, Outcome.trace_andThen hf, handled, silent, reap,
      if_neg (by simp [notDue])]
    exact ⟨rfl, rfl⟩

/-- A tab is not given a surface that another tab holds, and nothing comes of the attempt. -/
theorem rejects_step (build : Build) {held : List Nat} {h h' : Host σ} (ht : h.Tenanted held)
    {tab : TabId} {t : Tab σ} {surface : SurfaceId} (htab : h.tabs.get? tab = some t)
    (hs : t.surface = some surface) {e : Envelope} (hr : e.request = .initRendering surface)
    (hne : e.tab ≠ tab) (due : h.takeTask? = some (.deliver e, h')) :
    (h.step build .runOne).state.tabs = h.tabs ∧
      (h.step build .runOne).state.shared.surfaces = h.shared.surfaces ∧
      (h.step build .runOne).trace = [] := by
  obtain ⟨tabs, surfaces⟩ := takeTask?_eq_some due
  rw [step, runOne, due, ← tabs, ← surfaces]
  dsimp only
  cases hown : h'.tabs.get? e.tab with
  | none =>
    obtain ⟨same, silent⟩ := runTask_of_none build (.deliver e) hown
    rw [same]
    exact ⟨rfl, rfl, silent⟩
  | some u =>
    have hown' : h.tabs.get? e.tab = some u := tabs ▸ hown
    have other : u.surface ≠ some surface := fun hs' => hne (ht.exclusive hown' htab hs' hs)
    have taken : h'.shared.surfaces.entries.contains surface = true := by
      rw [surfaces, Table.contains]
      exact Table.mem_keys_iff.mp (ht.mem_keys_iff.mpr ⟨tab, t, htab, hs⟩)
    have ran := runTask_of_still build hown (ht.reaped e.tab u hown')
      (handle_of_taken build hr other taken)
    rw [ran.1]
    exact ⟨rfl, rfl, ran.2⟩

/-- A host that has its surfaces to itself owns them: every registered surface is of one
tab, with the handle that the tab holds. What is done to one tab spares the entries of the
others; and when a tab is told to paint into a surface of another tab, nothing changes. -/
theorem surfaces_owned (build : Build) {h : Host σ} {held : List Nat}
    (hr : h.ReachableAlone build held) :
    h.OwnsSurfaces ∧
    (∀ (ev : Event σ) tab t surface, ev.isForeign = false → ev ≠ .shutdown →
      h.tabs.get? tab = some t → t.surface = some surface →
      (∀ d, h.deed? ev = some d → d.tab ≠ tab) →
      (h.step build ev).state.shared.surfaces.entries.get? surface =
        h.shared.surfaces.entries.get? surface) ∧
    ∀ tab t surface e h', h.tabs.get? tab = some t → t.surface = some surface →
      e.request = .initRendering surface → e.tab ≠ tab →
      h.takeTask? = some (.deliver e, h') →
      (h.step build .runOne).state.tabs = h.tabs ∧
        (h.step build .runOne).state.shared.surfaces = h.shared.surfaces ∧
        (h.step build .runOne).trace = [] := by
  have ht := hr.tenanted
  refine ⟨ht.ownsSurfaces, ?_, ?_⟩
  · intro ev tab t surface alone ne htab hs hd
    exact spares_step build ht alone ne htab hs hd
  · intro tab t surface e h' htab hs hreq hne due
    exact rejects_step build ht htab hs hreq hne due

/-- Two tabs that are told to paint into one surface; the first one has been. -/
def contended : Host Headless :=
  ((new {} .zero {}).performs .checked
    [.event (.create { value := 7 } {}), .event (.create { value := 8 } {}),
      .event (.post { tab := { value := 7 }, request := .initRendering { value := 1 } }),
      .event .runOne,
      .event (.post { tab := { value := 8 }, request := .initRendering { value := 1 } })]).state

theorem reachableAlone_contended : contended.ReachableAlone .checked [] :=
  (ReachableAlone.new {} .zero).performs (by simp [Op.isForeign, Event.isForeign]) (by rfl)

/-- The first tab is registered, and the second one gets nothing. -/
theorem surfaces_owned_contended :
    contended.OwnsSurfaces ∧
    ((contended.shared.surfaces.lookup { value := 1 }).map Handle.tab = some { value := 7 }) ∧
    (contended.step .checked .runOne).state.shared.surfaces = contended.shared.surfaces := by
  obtain ⟨owns, -, rejects⟩ := surfaces_owned .checked reachableAlone_contended
  refine ⟨owns, by rfl, ?_⟩
  exact (rejects { value := 7 } _ { value := 1 } _ _ rfl rfl rfl (by decide) rfl).2.1

end Host

end TabHost
