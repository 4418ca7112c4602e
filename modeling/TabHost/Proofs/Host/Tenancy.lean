import TabHost.Proofs.Host.Step
import TabHost.Proofs.Render.Tenancy
import TabHost.Proofs.Tab.Surface

/-!
# Hosts with their surfaces to themselves

A host has its surfaces to itself when nobody else changes them; others may still look a
surface up, and hold on to the handle that they find (`Host.ReachableAlone`). Then surfaces
and tabs fit together: every event keeps it so (`Host.tenanted_step`), for the one tab that
it acts on goes on as the surfaces do (`Seat.Repaints.tenancy`), and so do others that take
or let go of a handle.
-/

set_option linter.unusedSectionVars false

namespace TabHost

variable {σ : Type} [Content σ]

/-! ## Acts -/

namespace Seat

variable {s : Seat σ} {o : Outcome Effect (Seat σ)} {tenant tenant' : TabId → Option Handle}
  {held : List Nat}

/-- A tab that holds a surface and a handle for it, or neither, goes on so. -/
theorem Repaints.attached (h : Repaints s o)
    (ha : s.tab.surface = s.tab.handle.map Handle.surface) :
    o.state.tab.surface = o.state.tab.handle.map Handle.surface := by
  cases h with
  | keeps surface handle => rw [surface, handle, ha]
  | marks _ surface handle => rw [surface, handle, ha]
  | attaches _ _ _ _ _ surface handle =>
    rw [surface, handle]
    rfl
  | leaves surface handle =>
    rw [surface, handle]
    rfl

/-- Whatever is done to a tab, surfaces and handles fit together. -/
theorem Repaints.tenancy (h : Repaints s o) (ht : s.shared.surfaces.Tenancy tenant held)
    (hown : tenant s.tab.id = s.tab.handle)
    (ha : s.tab.surface = s.tab.handle.map Handle.surface)
    (own : tenant' s.tab.id = o.state.tab.handle)
    (others : ∀ other, other ≠ s.tab.id → tenant' other = tenant other) :
    o.state.shared.surfaces.Tenancy tenant' held := by
  have same : o.state.tab.handle = s.tab.handle → tenant' = tenant := by
    intro handle
    funext other
    by_cases hk : other = s.tab.id
    · rw [hk, own, hown, handle]
    · exact others other hk
  cases h with
  | keeps _ handle surfaces =>
    rw [same handle, surfaces]
    exact ht
  | marks visible _ handle surfaces =>
    rw [same handle, surfaces]
    cases hs : s.tab.surface with
    | none =>
      rw [markSurface_of_none hs]
      exact ht
    | some surface =>
      rw [surfaces_markSurface hs]
      exact ht.setVisible surface visible
  | attaches new granted other _ free _ handle _ surfaces =>
    rw [ha, ← hown] at other surfaces
    rw [surfaces]
    exact (ht.attach other free (own.trans handle) others).setVisible new _
  | leaves _ handle surfaces =>
    rw [ha] at surfaces
    rw [surfaces]
    cases hh : s.tab.handle with
    | none =>
      rw [same (handle.trans hh.symm)]
      exact ht
    | some before => exact ht.vacate (hown.trans hh) (own.trans handle) others

/-- A tab is not deleted but by a pass of its delete or the loss of its link. -/
theorem state_act_ne_deleted (build : Build) {a : Act} (h : s.tab.Sound)
    (hl : a.losesLink = false) (hp : ∀ d, a ≠ .pass d) (hs : s.tab.state ≠ .deleted) :
    (act build a s).state.tab.state ≠ .deleted := by
  cases does_act build a h with
  | works _ _ hw =>
    rw [hw.state]
    exact hs
  | hungUp _ _ _ heq =>
    rw [heq]
    exact hs
  | tornDown _ _ ht =>
    rw [ht.tab]
    show a.stageAfter s.tab.state ≠ .deleted
    unfold Act.stageAfter
    split
    · simp
    · rw [hl, if_neg (by simp)]
      exact hs
  | rests _ hr =>
    generalize act build a s = o at hr
    cases hr with
    | still _ _ state =>
      rw [state]
      exact hs
    | unlinked link =>
      rw [hl] at link
      cases link
    | hungUp => exact hs
    | bounced => simp [setState, onQueue]
    | finished => exact absurd rfl (hp _)

end Seat

namespace Host

/-! ## A host with its surfaces to itself -/

/-- A host that operations lead to while nobody else changes its surfaces. Others may look a
surface up and hold on to the handle that they find; `held` are the serial numbers of the
handles that they hold. -/
inductive ReachableAlone (build : Build) : Host σ → List Nat → Prop
  | new (settings : Settings) (clock : Duration) :
      ReachableAlone build (new settings clock {}) []
  | perform {h : Host σ} {held : List Nat} (hr : ReachableAlone build h held) (op : Op σ)
      (alone : op.isForeign = false) (hf : (h.perform build op).fault = none) :
      ReachableAlone build (h.perform build op).state held
  | hold {h : Host σ} {held : List Nat} (hr : ReachableAlone build h held) (handle : Handle)
      (found : (∃ surface, h.shared.surfaces.lookup surface = some handle) ∨
        handle.serial ∈ held) :
      ReachableAlone build (h.onSurfaces (·.retain handle)) (handle.serial :: held)
  | letGo {h : Host σ} {held : List Nat} (hr : ReachableAlone build h held) (handle : Handle)
      (owed : handle.serial ∈ held) :
      ReachableAlone build (h.onSurfaces (·.release handle)) (held.erase handle.serial)

theorem ReachableAlone.performs {build : Build} {ops : List (Op σ)} {h : Host σ}
    {held : List Nat} (hr : h.ReachableAlone build held)
    (alone : ∀ op ∈ ops, op.isForeign = false) (hf : (h.performs build ops).fault = none) :
    (h.performs build ops).state.ReachableAlone build held := by
  induction ops generalizing h with
  | nil => exact hr
  | cons op rest ih =>
    obtain ⟨first, later⟩ := Outcome.fault_andThen_eq_none_iff.mp hf
    rw [Host.performs, Outcome.state_andThen first]
    have next := hr.perform op (alone op List.mem_cons_self) first
    exact ih next (fun op ho => alone op (List.mem_cons_of_mem _ ho)) later

/-- A host that is reachable while nobody else changes its surfaces is reachable. -/
theorem ReachableAlone.reachable {build : Build} {h : Host σ} {held : List Nat}
    (hr : h.ReachableAlone build held) : h.Reachable build := by
  induction hr with
  | new settings clock => exact .new settings clock {}
  | perform _ op _ hf ih => exact ih.perform op hf
  | hold _ handle _ ih => exact ih.perform (.event (.surfaces (·.retain handle))) rfl
  | letGo _ handle _ ih => exact ih.perform (.event (.surfaces (·.release handle))) rfl

/-- What holds of a host without tabs, and is kept by every event of the host and by what
others do to its handles, holds of every host that is reachable alone. -/
theorem ReachableAlone.induct {build : Build} {P : Host σ → List Nat → Prop}
    (new : ∀ settings clock, P (.new settings clock {}) [])
    (step : ∀ h held ev, ev.isForeign = false → P h held → (h.step build ev).fault = none →
      P (h.step build ev).state held)
    (hold : ∀ h held (handle : Handle), P h held →
      (∃ surface, h.shared.surfaces.lookup surface = some handle) ∨ handle.serial ∈ held →
      P (h.onSurfaces (·.retain handle)) (handle.serial :: held))
    (letGo : ∀ h held (handle : Handle), P h held → handle.serial ∈ held →
      P (h.onSurfaces (·.release handle)) (held.erase handle.serial))
    {h : Host σ} {held : List Nat} (hr : h.ReachableAlone build held) : P h held := by
  induction hr with
  | new settings clock => exact new settings clock
  | @perform h held _ op alone hf ih =>
    rw [perform_eq_runs] at hf ⊢
    refine runs_preserves (P := fun h => P h held) ?_ ih hf
    intro h ev he
    refine step h held ev ?_
    rcases mem_eventsOf he with rfl | rfl | ⟨tab, rfl⟩
    · exact alone
    · rfl
    · rfl
  | hold _ handle found ih => exact hold _ _ handle ih found
  | letGo _ handle owed ih => exact letGo _ _ handle ih owed

/-! ## Surfaces and tabs fit together -/

/-- The handle of a tab, if the tab is there and has one. -/
def tenant (h : Host σ) (tab : TabId) : Option Handle := (h.tabs.get? tab).bind Tab.handle

theorem tenant_of_some {h : Host σ} {tab : TabId} {t : Tab σ} (ht : h.tabs.get? tab = some t) :
    h.tenant tab = t.handle := by
  rw [tenant, ht]
  rfl

/-- Surfaces and tabs of a host fit together, while others hold some leases. -/
structure Tenanted (held : List Nat) (h : Host σ) : Prop where
  sound : h.Sound
  tenancy : h.shared.surfaces.Tenancy h.tenant held
  /-- A tab holds a surface and a handle for it, or neither. -/
  attached : ∀ tab t, h.tabs.get? tab = some t → t.surface = t.handle.map Handle.surface
  /-- A tab that is deleted is not there any more. -/
  reaped : ∀ tab t, h.tabs.get? tab = some t → t.state ≠ .deleted

/-- An act concerns the handle of its tab only; a tab that is gone has none. -/
theorem tenant_acts {build : Build} {h : Host σ} {tab : TabId} {a : Act} {s : Seat σ}
    {o : Outcome Effect (Host σ)} (acts : Acts build h tab a s o)
    (hs : (Seat.act build a s).state.tab.Sound) :
    o.state.tenant tab = (Seat.act build a s).state.tab.handle ∧
      ∀ other, other ≠ tab → o.state.tenant other = h.tenant other := by
  refine ⟨?_, ?_⟩
  · rcases acts.own with hown | ⟨hnone, hdeleted⟩
    · exact tenant_of_some hown
    · have dead : (Seat.act build a s).state.tab.state.isLive = false := by
        rw [hdeleted]
        rfl
      rw [tenant, hnone, (hs.tornDown dead).handle]
      rfl
  · intro other hne
    rw [tenant, tenant, acts.others other hne]

theorem nextSerial_shutdown (h : Host σ) :
    h.shutdown.state.shared.surfaces.nextSerial = h.shared.surfaces.nextSerial := by
  have dropped : ∀ (s : Surfaces) (surface : Option SurfaceId) (handle : Option Handle),
      (s.dropAny surface handle).nextSerial = s.nextSerial := by
    intro s surface handle
    cases surface <;> cases handle <;> rfl
  have one : ∀ (tab : TabId) (h : Host σ),
      (h.dropTab tab).state.shared.surfaces.nextSerial = h.shared.surfaces.nextSerial := by
    intro tab h
    rw [dropTab, onTab]
    split
    · rfl
    · next t ht =>
      rw [Seat.destroyWindow, Seat.destroyContent]
      split
      · exact dropped _ _ _
      · exact dropped _ _ _
  have all : ∀ (tabs : List TabId) (h : Host σ),
      (h.dropTabs tabs).state.shared.surfaces.nextSerial = h.shared.surfaces.nextSerial := by
    intro tabs
    induction tabs with
    | nil => exact fun _ => rfl
    | cons tab rest ih =>
      intro h
      refine Outcome.andThen_preserves (P := fun h' : Host σ =>
        h'.shared.surfaces.nextSerial = h.shared.surfaces.nextSerial) (one tab h) ?_
      intro h' hh'
      exact (ih h').trans hh'
  exact all h.tabs.keys h

/-- Reaping leaves no deleted tab of its id. -/
theorem state_reap_ne_deleted {tab : TabId} {h : Host σ} {t : Tab σ}
    (ht : (h.reap tab).state.tabs.get? tab = some t) : t.state ≠ .deleted := by
  unfold reap at ht
  split at ht
  · have gone := (h.dropTab_spec tab).2.2 tab
    rw [if_pos rfl] at gone
    cases gone.symm.trans ht
  · next hr =>
    intro hdeleted
    have reapable : h.isReapable tab = true := by
      rw [isReapable, show h.tabs.get? tab = some t from ht]
      simpa using hdeleted
    exact hr reapable

/-- A tab that is there after an event is not deleted. -/
theorem state_step_ne_deleted (build : Build) {h : Host σ} (hs : h.Sound)
    (hn : ∀ tab t, h.tabs.get? tab = some t → t.state ≠ .deleted) {ev : Event σ}
    (hf : (h.step build ev).fault = none) {tab : TabId} {t' : Tab σ}
    (ht' : (h.step build ev).state.tabs.get? tab = some t') : t'.state ≠ .deleted := by
  cases tabCase build hs ht' with
  | created content link _ _ state =>
    rw [state]
    simp [Tab.connected]
  | spared _ before => exact hn tab t' before
  | acted d t deed name before _ _ _ state =>
    have kept := Seat.state_act_ne_deleted build (a := d.act)
      (s := { tab := t, shared := d.around }) (hs tab t before).1
    rw [← state] at kept
    cases ev with
    | runOne =>
      -- a task is followed by reaping its tab
      obtain ⟨r, hr, rfl⟩ := Option.map_eq_some_iff.mp deed
      rw [step, runOne, hr] at hf ht'
      dsimp only at hf ht' name
      subst name
      have before' : r.2.tabs.get? r.1.tab = some t := by
        rw [(takeTask?_eq_some hr).1]
        exact before
      rw [runTask_of_some build r.1 before'] at hf ht'
      obtain ⟨first, -⟩ := Outcome.fault_andThen_eq_none_iff.mp hf
      rw [Outcome.state_andThen first] at ht'
      exact state_reap_ne_deleted ht'
    | flush | addBlocker | removeBlocker | destroy | push | hangUp =>
      cases deed
      exact kept rfl (by simp) (hn tab t before)
    | _ => cases deed

/-- A tab that is there after an event holds a surface and a handle for it, or neither. -/
theorem attached_step (build : Build) {h : Host σ} (hs : h.Sound)
    (ha : ∀ tab t, h.tabs.get? tab = some t → t.surface = t.handle.map Handle.surface)
    {ev : Event σ} {tab : TabId} {t' : Tab σ}
    (ht' : (h.step build ev).state.tabs.get? tab = some t') :
    t'.surface = t'.handle.map Handle.surface := by
  cases tabCase build hs ht' with
  | created content link _ _ state =>
    rw [state]
    rfl
  | spared _ before => exact ha tab t' before
  | acted d t _ _ before _ _ _ state =>
    have repaints := Seat.repaints_act build d.act (s := { tab := t, shared := d.around })
      (hs tab t before).1
    rw [state]
    exact repaints.attached (ha tab t before)

theorem tenancy_step (build : Build) {held : List Nat} {h : Host σ} (ht : h.Tenanted held)
    {ev : Event σ} (alone : ev.isForeign = false) :
    (h.step build ev).state.shared.surfaces.Tenancy (h.step build ev).state.tenant held := by
  cases stepCase build ht.sound ev with
  | quiet _ _ tabs _ surfaces =>
    have same : (h.step build ev).state.tenant = h.tenant := by
      funext tab
      rw [tenant, tenant, tabs]
    rw [same, surfaces alone]
    exact ht.tenancy
  | created new content link _ _ _ none state =>
    have same : (h.step build ev).state.tenant = h.tenant := by
      funext tab
      rw [tenant, tenant, state]
      by_cases hk : tab = new
      · subst hk
        rw [none]
        show ((h.tabs.insert tab _).get? tab).bind Tab.handle = _
        rw [Table.get?_insert_self]
        rfl
      · exact congrArg (Option.bind · Tab.handle) (Table.get?_insert_of_ne hk _ _)
    rw [same, state]
    exact ht.tenancy
  | acted d t deed htab around acts =>
    obtain ⟨hsound, hname⟩ := ht.sound d.tab t htab
    have repaints : Seat.Repaints { tab := t, shared := d.around }
        (Seat.act build d.act { tab := t, shared := d.around }) :=
      Seat.repaints_act build d.act hsound
    have sound := Seat.sound_act build (s := { tab := t, shared := d.around }) hsound
      (act_ne_drop deed)
    have before : d.around.surfaces.Tenancy h.tenant held := around ▸ ht.tenancy
    have id : t.id = d.tab := hname.id
    obtain ⟨own, others⟩ := tenant_acts acts sound
    rw [← id] at own others
    rw [acts.shared]
    refine repaints.tenancy before ?_ (ht.attached d.tab t htab) own others
    show h.tenant t.id = t.handle
    rw [id]
    exact tenant_of_some htab
  | shut event shuts =>
    have none : (h.step build ev).state.tenant = fun _ => .none := by
      funext tab
      rw [tenant, shuts.tabs]
      rfl
    rw [none]
    refine Surfaces.tenancy_clear ?_ shuts.entries
    subst event
    rw [step, nextSerial_shutdown]
    exact ht.tenancy.heldIssued

theorem tenanted_step (build : Build) {held : List Nat} {h : Host σ} (ht : h.Tenanted held)
    {ev : Event σ} (alone : ev.isForeign = false) (hf : (h.step build ev).fault = none) :
    (h.step build ev).state.Tenanted held :=
  ⟨sound_step build ht.sound ev, tenancy_step build ht alone,
    fun _ _ => attached_step build ht.sound ht.attached,
    fun _ _ => state_step_ne_deleted build ht.sound ht.reaped hf⟩

/-- Others may hold on to a handle that they find, or hold already. -/
theorem Tenanted.retain {held : List Nat} {h : Host σ} {handle : Handle} (ht : h.Tenanted held)
    (found : (∃ surface, h.shared.surfaces.lookup surface = some handle) ∨
      handle.serial ∈ held) :
    (h.onSurfaces (·.retain handle)).Tenanted (handle.serial :: held) := by
  refine ⟨ht.sound, ht.tenancy.retain ?_, ht.attached, ht.reaped⟩
  rcases found with ⟨surface, hl⟩ | hm
  · exact ht.tenancy.issued _ _ (ht.tenancy.tenant_of_lookup hl).1
  · exact ht.tenancy.heldIssued _ hm

/-- Others may let go of what they hold. -/
theorem Tenanted.release {held : List Nat} {h : Host σ} {handle : Handle} (ht : h.Tenanted held)
    (owed : handle.serial ∈ held) :
    (h.onSurfaces (·.release handle)).Tenanted (held.erase handle.serial) :=
  ⟨ht.sound, ht.tenancy.release owed, ht.attached, ht.reaped⟩

theorem ReachableAlone.tenanted {build : Build} {h : Host σ} {held : List Nat}
    (hr : h.ReachableAlone build held) : h.Tenanted held := by
  refine ReachableAlone.induct (P := fun h held => h.Tenanted held) ?_ ?_ ?_ ?_ hr
  · intro settings clock
    have none : (Host.new settings clock {} : Host σ).tenant = fun _ => .none := rfl
    refine ⟨sound_new settings clock {}, ?_, ?_, ?_⟩
    · rw [none]
      exact Surfaces.tenancy_clear (by simp) (fun _ => rfl)
    · intro tab t ht
      cases ht
    · intro tab t ht
      cases ht
  · intro h held ev alone ht hf
    exact tenanted_step build ht alone hf
  · intro h held handle ht found
    exact ht.retain found
  · intro h held handle ht owed
    exact ht.release owed

end Host

end TabHost
