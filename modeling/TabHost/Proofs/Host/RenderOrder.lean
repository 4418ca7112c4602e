import TabHost.Proofs.Host.Census
import TabHost.Proofs.Tab.Acknowledgement
import TabHost.Proofs.Tab.RenderOrder

/-!
# The order of render requests does not matter

Render requests for a tab of a host may be handled in any order, with blockers that come and
go in between: once no blocker is left, the tab is in the newest render state of all, and its
surface is visible just as that state says (`Host.rendersTo_newest`). As there is only one
newest state, two orders of the same requests come to the same (`Host.render_order_irrelevant`).
-/

set_option linter.unusedSectionVars false

namespace TabHost

variable {σ : Type} [Content σ]

namespace Host

/-! ## Reachable gates -/

/-- A checked build stops before a gate loses count of its blockers, so nothing is ever put off
without a blocker. -/
theorem Reachable.settled {h : Host σ} (hr : h.Reachable .checked) {tab : TabId} {t : Tab σ}
    (ht : h.tabs.get? tab = some t) : t.Settled := by
  have both : h.Sound ∧ ∀ tab t, h.tabs.get? tab = some t → t.Settled := by
    refine Reachable.induct (P := fun h : Host σ =>
      h.Sound ∧ ∀ tab t, h.tabs.get? tab = some t → t.Settled) ?_ ?_ hr
    · exact fun settings clock surfaces =>
        ⟨sound_new settings clock surfaces, fun tab t ht => by cases ht⟩
    · intro h ev hp _
      refine ⟨sound_step .checked hp.1 ev, ?_⟩
      intro tab t' ht'
      cases tabCase .checked hp.1 ht' with
      | created content link _ _ state =>
        rw [state]
        exact Tab.settled_connected tab _ _ _
      | spared _ before => exact hp.2 tab t' before
      | acted d t _ _ before _ _ _ state =>
        have acknowledges : Seat.Acknowledges tab { tab := t, shared := d.around }
            (Seat.act .checked d.act { tab := t, shared := d.around }) :=
          Seat.acknowledges_act .checked (hp.1 tab t before).1 (hp.2 tab t before)
            fun _ => Or.inl rfl
        rw [state]
        exact acknowledges.settled
  exact both.2 tab t ht

/-! ## Requests for a tab -/

/-- Some acts on a tab come to their end, and leave the tab and its surface in a render
state. -/
def RendersTo (build : Build) (h : Host σ) (tab : TabId) (surface : SurfaceId) (as : List Act)
    (r : PendingRender) : Prop :=
  (h.onTab tab (Seat.acts build as)).fault = none ∧
  ∃ u, (h.onTab tab (Seat.acts build as)).state.tabs.get? tab = some u ∧
    u.epoch = r.epoch ∧ Content.isVisible u.content = r.enabled ∧
    (h.onTab tab (Seat.acts build as)).state.shared.surfaces.isVisible surface = r.enabled

/-- Once no blocker is left, a tab is in the newest of the render states that it was due to be
in or that were asked for. -/
theorem rendersTo_newest [Content.ShowsAsTold σ] (build : Build) {h : Host σ} {held : List Nat}
    (hr : h.ReachableAlone build held) {tab : TabId} {t : Tab σ} {surface : SurfaceId}
    (htab : h.tabs.get? tab = some t) (live : t.state.isLive = true) (hopen : t.ipcOpen = true)
    (hs : t.surface = some surface) (prompt : t.gate.blockers = 0 → t.gate.render = none)
    {as : List Act} (ha : ∀ a ∈ as, a.isRendering = true)
    (balanced : Act.outstanding? t.gate.blockers.toNat as = some 0) :
    h.RendersTo build tab surface as
      ((as.filterMap Act.render?).foldl PendingRender.newer t.due) := by
  have tenanted := hr.tenanted
  have awaits : Seat.Awaits surface t.gate.blockers.toNat t.due
      { tab := t, shared := h.shared } :=
    ⟨live, hopen, hs, rfl, fun hzero => prompt (UInt32.toNat.inj hzero), rfl⟩
  have displays : Seat.Displays surface { tab := t, shared := h.shared } := by
    obtain ⟨handle, -, rfl, tenant⟩ := tenanted.handle_of_surface htab hs
    refine ⟨(tenanted.sound tab t htab).1, fun surface => hr.marked tab t surface htab, ?_⟩
    rw [tenanted.tenancy.lookup_of_tenant tenant]
    rfl
  obtain ⟨fault, reached, displays⟩ := Seat.awaits_acts build awaits displays ha balanced
  obtain ⟨epoch, visible⟩ := reached.reached
  rw [RendersTo, onTab_of_some htab]
  exact ⟨fault, _, Table.get?_insert_self _ _ _, epoch, visible,
    (displays.isVisible reached.surface).trans visible⟩

/-- The order in which render requests are handled does not matter, and neither do blockers
that come and go in between: in the end the tab, its content and its surface are in the newest
render state of those that were asked for and the one that the tab was due to be in. For a tab
without blockers that is the one that it was in. -/
theorem render_order_irrelevant [Content.ShowsAsTold σ] (build : Build) {h : Host σ}
    {held : List Nat} (hr : h.ReachableAlone build held) {tab : TabId} {t : Tab σ}
    {surface : SurfaceId} (htab : h.tabs.get? tab = some t) (active : t.state = .active)
    (hopen : t.ipcOpen = true) (hs : t.surface = some surface)
    (hcount : build = .checked ∨ (t.gate.blockers = 0 → t.gate.render = none))
    {xs ys : List Act} (hxs : ∀ a ∈ xs, a.isRendering = true)
    (hys : ∀ a ∈ ys, a.isRendering = true)
    (distinct : ((xs.filterMap Act.render?).map PendingRender.epoch).Nodup)
    (same : List.Perm (ys.filterMap Act.render?) (xs.filterMap Act.render?))
    (balancedX : Act.outstanding? t.gate.blockers.toNat xs = some 0)
    (balancedY : Act.outstanding? t.gate.blockers.toNat ys = some 0) :
    h.shared.surfaces.isVisible surface = Content.isVisible t.content ∧
    (t.gate.blockers = 0 →
      t.due = { enabled := Content.isVisible t.content, epoch := t.epoch }) ∧
    ∃ last, IsNewest t.due (xs.filterMap Act.render?) last ∧
      h.RendersTo build tab surface xs last ∧ h.RendersTo build tab surface ys last := by
  have live : t.state.isLive = true := by
    rw [active]
    rfl
  have prompt : t.gate.blockers = 0 → t.gate.render = none := by
    rcases hcount with rfl | prompt
    · exact (hr.reachable.settled htab).blocked
    · exact prompt
  have newest := isNewest_foldl t.due (xs.filterMap Act.render?)
  have one : (ys.filterMap Act.render?).foldl PendingRender.newer t.due =
      (xs.filterMap Act.render?).foldl PendingRender.newer t.due :=
    newest.unique (isNewest_foldl t.due (ys.filterMap Act.render?)) distinct same
  refine ⟨((visible_census build hr).2.2 tab t surface htab hs).2, ?_, _, newest, ?_, ?_⟩
  · intro hzero
    rw [Tab.due, prompt hzero]
    rfl
  · exact rendersTo_newest build hr htab live hopen hs prompt hxs balancedX
  · rw [← one]
    exact rendersTo_newest build hr htab live hopen hs prompt hys balancedY

/-- A newer request to hide and an older one to paint, which overtakes it; both put off. -/
def paintFirst : List Act :=
  [.addBlocker,
    .request { tab := { value := 7 }, request := .paintWhileInterrupting { value := 3 } true },
    .request { tab := { value := 7 }, request := .setRenderState false false { value := 5 } },
    .removeBlocker]

/-- The same requests the other way, the older one after the blocker is gone. -/
def hideFirst : List Act :=
  [.addBlocker,
    .request { tab := { value := 7 }, request := .setRenderState false false { value := 5 } },
    .removeBlocker,
    .request { tab := { value := 7 }, request := .paintWhileInterrupting { value := 3 } true }]

/-- The first tab of `rendering`, at epoch 1, is hidden at epoch 5 in both orders. -/
theorem render_order_irrelevant_rendering :
    rendering.RendersTo .checked { value := 7 } { value := 1 } paintFirst
      { enabled := false, epoch := { value := 5 } } ∧
    rendering.RendersTo .checked { value := 7 } { value := 1 } hideFirst
      { enabled := false, epoch := { value := 5 } } := by
  have distinct : ((paintFirst.filterMap Act.render?).map PendingRender.epoch).Nodup := by decide
  have same : List.Perm (hideFirst.filterMap Act.render?) (paintFirst.filterMap Act.render?) :=
    .swap _ _ []
  have hosted : rendering.tabs.get? { value := 7 } = some _ := rfl
  obtain ⟨-, -, last, newest, paint, hide⟩ :=
    render_order_irrelevant .checked reachableAlone_rendering hosted rfl rfl rfl (Or.inl rfl)
      (by decide) (by decide) distinct same (by rfl) (by rfl)
  obtain rfl := (isNewest_foldl _ _).unique newest distinct (.refl _)
  exact ⟨paint, hide⟩

end Host

end TabHost
