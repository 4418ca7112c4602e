import TabHost.Render.Surfaces

/-!
# Who paints into which surface

`Surfaces.Tenancy` says that surfaces and the handles of tabs fit together: the handle of a
tab is what is registered for its surface, all that is registered is the handle of some tab,
and no lease of others on it is its last one. What is looked up then is what the tab of the
surface holds (`Tenancy.lookup_of_tenant`), and a surface that no tab holds is free
(`Tenancy.get?_of_vacant`).

A tab that attaches to a surface is registered for the new one first and leaves the old one
then. It might as well do so in the other order (`Surfaces.register?_dropAny`), so attaching
is leaving (`Tenancy.vacate`) and moving in (`Tenancy.moveIn`).
-/

set_option linter.unusedSectionVars false

namespace TabHost

namespace Surfaces

variable {tenant tenant' : TabId → Option Handle} {held : List Nat} {s s' : Surfaces}
  {tab : TabId} {surface : SurfaceId} {handle : Handle}

/-- The surfaces and the handles of tabs fit together, while others hold some leases. -/
structure Tenancy (tenant : TabId → Option Handle) (held : List Nat) (s : Surfaces) : Prop where
  /-- The handle of a tab names it, and is registered. -/
  registered : ∀ tab handle, tenant tab = some handle → handle.tab = tab ∧
    ∃ visible, s.entries.get? handle.surface = some { handle := handle, visible := visible }
  /-- What is registered is the handle of its tab, for its surface. -/
  owned : ∀ surface e, s.entries.get? surface = some e →
    e.handle.surface = surface ∧ tenant e.handle.tab = some e.handle
  /-- A tab has a lease on its handle besides those of others. -/
  leased : ∀ tab handle, tenant tab = some handle →
    held.count handle.serial < s.leases.count handle.serial
  /-- Handles of different tabs are told apart. -/
  distinct : ∀ tab tab' handle handle', tenant tab = some handle →
    tenant tab' = some handle' → handle.serial = handle'.serial → tab = tab'
  /-- The next handle will be a new one. -/
  issued : ∀ tab handle, tenant tab = some handle → handle.serial < s.nextSerial
  heldIssued : ∀ n ∈ held, n < s.nextSerial

namespace Tenancy

/-! ## Looking surfaces up -/

theorem isAlive_of_tenant (h : Tenancy tenant held s) (ht : tenant tab = some handle) :
    s.isAlive handle = true := by
  have hlease := h.leased tab handle ht
  have hcount : 0 < s.leases.count handle.serial := by omega
  simpa [isAlive] using List.count_pos_iff.mp hcount

theorem lookup_of_tenant (h : Tenancy tenant held s) (ht : tenant tab = some handle) :
    s.lookup handle.surface = some handle := by
  obtain ⟨-, visible, hget⟩ := h.registered tab handle ht
  simp only [lookup, hget, h.isAlive_of_tenant ht, if_true]

/-- A surface is of one tab only. -/
theorem surface_injective (h : Tenancy tenant held s) {tab' : TabId} {handle' : Handle}
    (ht : tenant tab = some handle) (ht' : tenant tab' = some handle')
    (hs : handle.surface = handle'.surface) : tab = tab' := by
  obtain ⟨htab, visible, hget⟩ := h.registered tab handle ht
  obtain ⟨htab', visible', hget'⟩ := h.registered tab' handle' ht'
  rw [hs, hget'] at hget
  cases hget
  exact htab.symm.trans htab'

/-- A surface that no tab holds is free. -/
theorem get?_of_vacant (h : Tenancy tenant held s)
    (hv : ∀ tab handle, tenant tab = some handle → handle.surface ≠ surface) :
    s.entries.get? surface = none := by
  cases hget : s.entries.get? surface with
  | none => rfl
  | some e =>
    obtain ⟨hs, ht⟩ := h.owned surface e hget
    exact absurd hs (hv _ _ ht)

theorem tenant_of_lookup (h : Tenancy tenant held s) (hl : s.lookup surface = some handle) :
    tenant handle.tab = some handle ∧ handle.surface = surface := by
  unfold lookup at hl
  split at hl
  · cases hl
  · next e hget =>
    split at hl
    · cases hl
      exact (h.owned surface e hget).symm
    · cases hl

/-! ## Leases of others -/

/-- Others may hold on to a handle that was issued. -/
theorem retain (h : Tenancy tenant held s) (hn : handle.serial < s.nextSerial) :
    Tenancy tenant (handle.serial :: held) (s.retain handle) := by
  refine ⟨h.registered, h.owned, ?_, h.distinct, h.issued, ?_⟩
  · intro tab' handle' ht'
    have hlease := h.leased tab' handle' ht'
    simp only [Surfaces.retain, List.count_cons]
    omega
  · intro n hm
    rcases List.mem_cons.mp hm with rfl | hm
    · exact hn
    · exact h.heldIssued n hm

/-- Others may let go of what they hold. -/
theorem release (h : Tenancy tenant held s) (howed : handle.serial ∈ held) :
    Tenancy tenant (held.erase handle.serial) (s.release handle) := by
  refine ⟨h.registered, h.owned, ?_, h.distinct, h.issued, ?_⟩
  · intro tab' handle' ht'
    have hlease := h.leased tab' handle' ht'
    have howed' : 0 < held.count handle.serial := List.count_pos_iff.mpr howed
    show (held.erase handle.serial).count handle'.serial <
      (s.leases.erase handle.serial).count handle'.serial
    rw [List.count_erase, List.count_erase]
    by_cases hk : handle.serial = handle'.serial
    · rw [hk] at howed'
      simp only [hk, beq_self_eq_true, if_true]
      omega
    · simp only [beq_iff_eq, hk, if_false]
      omega
  · intro n hm
    exact h.heldIssued n (List.mem_of_mem_erase hm)

/-! ## Surfaces of tabs -/

theorem setVisible (h : Tenancy tenant held s) (surface : SurfaceId) (visible : Bool) :
    Tenancy tenant held (s.setVisible surface visible) := by
  refine ⟨?_, ?_, h.leased, h.distinct, h.issued, h.heldIssued⟩
  · intro tab handle ht
    obtain ⟨htab, before, hget⟩ := h.registered tab handle ht
    refine ⟨htab, ?_⟩
    by_cases hk : handle.surface = surface
    · exact ⟨visible, by rw [Surfaces.setVisible, ← hk, Table.get?_modify_self, hget]; rfl⟩
    · exact ⟨before, by rw [Surfaces.setVisible, Table.get?_modify_of_ne hk, hget]⟩
  · intro surface' e he
    by_cases hk : surface' = surface
    · subst hk
      rw [Surfaces.setVisible, Table.get?_modify_self] at he
      obtain ⟨e', he', rfl⟩ := Option.map_eq_some_iff.mp he
      exact h.owned surface' e' he'
    · rw [Surfaces.setVisible, Table.get?_modify_of_ne hk] at he
      exact h.owned surface' e he

/-- A tab gives its surface and its handle up. -/
theorem vacate (h : Tenancy tenant held s) (ht : tenant tab = some handle)
    (own : tenant' tab = none) (others : ∀ other, other ≠ tab → tenant' other = tenant other) :
    Tenancy tenant' held (s.dropAny (some handle.surface) (some handle)) := by
  -- what another tab has now, it had before
  have before : ∀ {other handle'}, tenant' other = some handle' →
      other ≠ tab ∧ tenant other = some handle' := by
    intro other handle' ht'
    have hne : other ≠ tab := by
      rintro rfl
      rw [own] at ht'
      cases ht'
    exact ⟨hne, (others other hne).symm.trans ht'⟩
  refine ⟨?registered, ?owned, ?leased, ?distinct, ?issued, h.heldIssued⟩
  case registered =>
    intro other handle' ht'
    obtain ⟨hne, ht'⟩ := before ht'
    obtain ⟨htab, visible, hget⟩ := h.registered other handle' ht'
    have hsurface : handle'.surface ≠ handle.surface :=
      fun hs => hne (h.surface_injective ht' ht hs)
    exact ⟨htab, visible, (Table.get?_erase_of_ne hsurface _).trans hget⟩
  case owned =>
    intro surface e he
    have hsurface : surface ≠ handle.surface := by
      rintro rfl
      cases (Table.get?_erase_self _ _).symm.trans he
    obtain ⟨hs, ht'⟩ := h.owned surface e ((Table.get?_erase_of_ne hsurface _).symm.trans he)
    have hne : e.handle.tab ≠ tab := by
      intro hk
      rw [hk, ht] at ht'
      cases ht'
      exact hsurface hs.symm
    exact ⟨hs, (others _ hne).trans ht'⟩
  case leased =>
    intro other handle' ht'
    obtain ⟨hne, ht'⟩ := before ht'
    have hserial : handle'.serial ≠ handle.serial :=
      fun hs => hne (h.distinct other tab handle' handle ht' ht hs)
    have hlease := h.leased other handle' ht'
    show held.count handle'.serial < (s.leases.erase handle.serial).count handle'.serial
    rw [List.count_erase_of_ne hserial]
    exact hlease
  case distinct =>
    intro other other' handle' handle'' ht' ht''
    exact h.distinct other other' handle' handle'' (before ht').2 (before ht'').2
  case issued =>
    intro other handle' ht'
    exact h.issued other handle' (before ht').2

/-- A tab without a surface moves into a free one, with a new handle. -/
theorem moveIn (h : Tenancy tenant held s) (ht : tenant tab = none)
    (hr : (s.issue tab surface).2.register? surface (s.issue tab surface).1 = some s')
    (own : tenant' tab = some (s.issue tab surface).1)
    (others : ∀ other, other ≠ tab → tenant' other = tenant other) :
    Tenancy tenant' held s' := by
  -- a handle is the new one, or was there before
  have was : ∀ {other handle'}, tenant' other = some handle' →
      other = tab ∧ handle' = { serial := s.nextSerial, tab := tab, surface := surface } ∨
        other ≠ tab ∧ tenant other = some handle' := by
    intro other handle' ht'
    by_cases hk : other = tab
    · subst hk
      exact Or.inl ⟨rfl, (Option.some.inj (own.symm.trans ht')).symm⟩
    · exact Or.inr ⟨hk, (others other hk).symm.trans ht'⟩
  unfold register? at hr
  split at hr
  · cases hr
  next hfree =>
  cases hr
  have free : s.entries.get? surface = none := by
    simpa [issue, Table.contains] using hfree
  refine ⟨?registered, ?owned, ?leased, ?distinct, ?issued, ?heldIssued⟩
  case registered =>
    intro other handle' ht'
    rcases was ht' with ⟨rfl, rfl⟩ | ⟨-, ht'⟩
    · exact ⟨rfl, false, Table.get?_insert_self _ _ _⟩
    · obtain ⟨htab, visible, hget⟩ := h.registered other handle' ht'
      have hsurface : handle'.surface ≠ surface := by
        intro hs
        rw [hs, free] at hget
        cases hget
      exact ⟨htab, visible, (Table.get?_insert_of_ne hsurface _ _).trans hget⟩
  case owned =>
    intro surface' e he
    by_cases hk : surface' = surface
    · subst hk
      cases (Table.get?_insert_self _ _ _).symm.trans he
      exact ⟨rfl, own⟩
    · obtain ⟨hs, ht'⟩ := h.owned surface' e ((Table.get?_insert_of_ne hk _ _).symm.trans he)
      have hne : e.handle.tab ≠ tab := by
        intro hk
        rw [hk, ht] at ht'
        cases ht'
      exact ⟨hs, (others _ hne).trans ht'⟩
  case leased =>
    intro other handle' ht'
    show held.count handle'.serial < (s.nextSerial :: s.leases).count handle'.serial
    rcases was ht' with ⟨-, rfl⟩ | ⟨-, ht'⟩
    · have fresh : s.nextSerial ∉ held := fun hm => Nat.lt_irrefl _ (h.heldIssued _ hm)
      rw [List.count_eq_zero_of_not_mem fresh, List.count_cons_self]
      exact Nat.succ_pos _
    · exact Nat.lt_of_lt_of_le (h.leased other handle' ht') List.count_le_count_cons
  case distinct =>
    intro other other' handle' handle'' ht' ht'' hserial
    rcases was ht' with ⟨rfl, rfl⟩ | ⟨-, ht'⟩ <;> rcases was ht'' with ⟨rfl, rfl⟩ | ⟨-, ht''⟩
    · rfl
    · exact absurd hserial.symm (Nat.ne_of_lt (h.issued other' handle'' ht''))
    · exact absurd hserial (Nat.ne_of_lt (h.issued other handle' ht'))
    · exact h.distinct other other' handle' handle'' ht' ht'' hserial
  case issued =>
    intro other handle' ht'
    rcases was ht' with ⟨-, rfl⟩ | ⟨-, ht'⟩
    · exact Nat.lt_succ_self _
    · exact Nat.lt_succ_of_lt (h.issued other handle' ht')
  case heldIssued =>
    intro n hm
    exact Nat.lt_succ_of_lt (h.heldIssued n hm)

end Tenancy

/-! ## Attaching anew -/

/-- Leaving another surface before the new one is registered comes to the same. -/
theorem register?_dropAny (hs : surface ≠ handle.surface) (hn : handle.serial < s.nextSerial)
    (hr : (s.issue tab surface).2.register? surface (s.issue tab surface).1 = some s') :
    let left := s.dropAny (some handle.surface) (some handle)
    (left.issue tab surface).1 = (s.issue tab surface).1 ∧
      (left.issue tab surface).2.register? surface (left.issue tab surface).1 =
        some (s'.dropAny (some handle.surface) (some handle)) := by
  have free : s.entries.contains surface = false := by
    unfold register? at hr
    split at hr
    · cases hr
    · next h => simpa [issue] using h
  have free' : (s.entries.erase handle.surface).contains surface = false := by
    rw [Table.contains, Table.get?_erase_of_ne hs]
    exact free
  refine ⟨rfl, ?_⟩
  unfold register? at hr ⊢
  rw [if_neg (by simpa [issue] using free)] at hr
  cases hr
  rw [if_neg (by
    simpa [issue, dropAny, unregisterAny, releaseAny, unregister, release] using free')]
  have entries : ∀ e : SurfaceEntry, (s.entries.erase handle.surface).insert surface e =
      (s.entries.insert surface e).erase handle.surface := by
    intro e
    refine Table.ext_get? ?_
    intro k
    by_cases hk : k = surface
    · subst hk
      rw [Table.get?_insert_self, Table.get?_erase_of_ne hs, Table.get?_insert_self]
    · rw [Table.get?_insert_of_ne hk, Table.get?_erase, Table.get?_erase,
        Table.get?_insert_of_ne hk]
  have leases : s.nextSerial :: s.leases.erase handle.serial =
      (s.nextSerial :: s.leases).erase handle.serial := by
    have hne : s.nextSerial ≠ handle.serial := by omega
    rw [List.erase_cons_tail (by simpa using hne)]
  simp only [issue, dropAny, unregisterAny, releaseAny, unregister, release, entries, leases]

/-- A tab moves from its surface, if it has one, to a free one. -/
theorem Tenancy.attach (h : Tenancy tenant held s)
    (hs : (tenant tab).map Handle.surface ≠ some surface)
    (hr : (s.issue tab surface).2.register? surface (s.issue tab surface).1 = some s')
    (own : tenant' tab = some (s.issue tab surface).1)
    (others : ∀ other, other ≠ tab → tenant' other = tenant other) :
    Tenancy tenant' held (s'.dropAny ((tenant tab).map Handle.surface) (tenant tab)) := by
  cases ht : tenant tab with
  | none => exact h.moveIn ht hr own others
  | some handle =>
    have hne : surface ≠ handle.surface := by
      rintro rfl
      rw [ht] at hs
      exact hs rfl
    obtain ⟨same, hr'⟩ := register?_dropAny hne (h.issued tab handle ht) hr
    have left : Tenancy (fun other => if other = tab then none else tenant other) held
        (s.dropAny (some handle.surface) (some handle)) :=
      h.vacate ht (if_pos rfl) (fun other ho => if_neg ho)
    refine left.moveIn (if_pos rfl) hr' (own.trans (congrArg some same.symm)) ?_
    intro other ho
    rw [if_neg ho]
    exact others other ho

/-- Without tabs nothing is registered. -/
theorem tenancy_clear (hi : ∀ n ∈ held, n < s.nextSerial)
    (he : ∀ surface, s.entries.get? surface = none) : Tenancy (fun _ => none) held s :=
  ⟨by simp, by simp [he], by simp, by simp, by simp, hi⟩

end Surfaces

end TabHost
