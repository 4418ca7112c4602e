import TabHost.Proofs.Tab.Rendering
import TabHost.Proofs.Tab.Teardown

/-!
# What a tab does to the surfaces

Whatever is done to a tab, it comes to one of four things for the surfaces
(`Seat.repaints_act`): nothing; a mark at its own surface, just as content is told; another
surface, that was free, marked as content stands; or no surface any more. An entry of a
surface that the tab does not hold is left as it was in any case (`Seat.Repaints.spares`).
-/

set_option linter.unusedSectionVars false

namespace TabHost

variable {σ : Type} [Content σ]

namespace Seat

variable {s s' : Seat σ} {o : Outcome Effect (Seat σ)}

/-- What an act comes to for the surfaces. -/
inductive Repaints (s : Seat σ) (o : Outcome Effect (Seat σ)) : Prop
  | keeps (surface : o.state.tab.surface = s.tab.surface)
      (handle : o.state.tab.handle = s.tab.handle)
      (surfaces : o.state.shared.surfaces = s.shared.surfaces)
      (told : shown s.tab.id o.trace = [])
  /-- The surface is marked, and content is told. -/
  | marks (visible : Bool) (surface : o.state.tab.surface = s.tab.surface)
      (handle : o.state.tab.handle = s.tab.handle)
      (surfaces : o.state.shared.surfaces = (s.markSurface visible).shared.surfaces)
      (told : shown s.tab.id o.trace = [visible])
  /-- The tab gets another surface, and content is not told. -/
  | attaches (new : SurfaceId) (granted : Surfaces) (other : s.tab.surface ≠ some new)
      (live : s.tab.state.isLive = true)
      (free : (s.shared.surfaces.issue s.tab.id new).2.register? new
        (s.shared.surfaces.issue s.tab.id new).1 = some granted)
      (surface : o.state.tab.surface = some new)
      (handle : o.state.tab.handle = some (s.shared.surfaces.issue s.tab.id new).1)
      (content : o.state.tab.content = s.tab.content)
      (surfaces : o.state.shared.surfaces =
        (granted.dropAny s.tab.surface s.tab.handle).setVisible new
          (Content.isVisible s.tab.content))
      (told : shown s.tab.id o.trace = [])
  /-- The window of the tab is gone. -/
  | leaves (surface : o.state.tab.surface = none) (handle : o.state.tab.handle = none)
      (surfaces : o.state.shared.surfaces =
        s.shared.surfaces.dropAny s.tab.surface s.tab.handle)

/-- Doing nothing but changing other things of the tab. -/
theorem Repaints.of_eq (surface : o.state.tab.surface = s.tab.surface)
    (handle : o.state.tab.handle = s.tab.handle) (shared : o.state.shared = s.shared)
    (trace : o.trace = []) : Repaints s o :=
  .keeps surface handle (by rw [shared]) (by rw [trace]; rfl)

/-- Input does not concern the surfaces. -/
theorem Feeds.repaints (h : Feeds s o) : Repaints s o := by
  refine .keeps h.surface h.handle h.surfaces (shown_eq_nil ?_)
  intro c hc
  exact Call.shows?_of_isInput (h.calls hc)

theorem Renders.repaints {enabled : Bool} (h : Renders enabled s o)
    (surface : o.state.tab.surface = s.tab.surface)
    (handle : o.state.tab.handle = s.tab.handle) : Repaints s o := by
  cases h with
  | stands _ _ shared told => exact .keeps surface handle (by rw [shared]) told
  | changes shared told => exact .marks enabled surface handle (by rw [shared]) told

theorem repaints_requestRender (enabled force : Bool) (epoch : Epoch) (s : Seat σ) :
    Repaints s (requestRender enabled force epoch s) := by
  rcases requestRender_cases enabled force epoch s with ⟨-, h⟩ | ⟨-, -, h⟩ | ⟨-, -, h⟩ <;> rw [h]
  · exact .of_eq rfl rfl rfl rfl
  · exact .of_eq rfl rfl rfl rfl
  · have renders : Renders enabled s
        (applyRender enabled force epoch { s with tab := { s.tab with epoch := epoch } }) :=
      (renders_applyRender _ _ _ _).of_same rfl rfl rfl
    obtain ⟨-, content, htab⟩ := applyRender_spec enabled force epoch
      { s with tab := { s.tab with epoch := epoch } }
    exact renders.repaints (by rw [htab]) (by rw [htab])

theorem repaints_paintWhileInterrupting (epoch : Epoch) (force : Bool) (s : Seat σ) :
    Repaints s (paintWhileInterrupting epoch force s) := by
  unfold paintWhileInterrupting
  split
  · exact repaints_requestRender true force epoch s
  · exact .of_eq rfl rfl rfl rfl

theorem repaints_setActive (active : Bool) (s : Seat σ) : Repaints s (setActive active s) := by
  unfold setActive
  split
  · exact .of_eq rfl rfl rfl rfl
  · exact .keeps rfl rfl rfl (shown_notify (.active active) s)

theorem repaints_addBlocker (build : Build) (s : Seat σ) : Repaints s (addBlocker build s) := by
  unfold addBlocker Gate.addBlocker
  split
  · split
    · exact .of_eq rfl rfl rfl rfl
    · exact .of_eq rfl rfl rfl rfl
  · exact .of_eq rfl rfl rfl rfl

theorem repaints_removeBlocker (build : Build) (hl : s.tab.state.isLive = true) :
    Repaints s (removeBlocker build s) := by
  rcases removeBlocker_cases build hl with ⟨-, hs, ht⟩ | ⟨-, h⟩ | ⟨-, h⟩
  · exact .of_eq (by rw [hs]) (by rw [hs]) (by rw [hs]) ht
  · rw [h]
    exact .of_eq rfl rfl rfl rfl
  · rw [h]
    obtain ⟨-, ⟨content, htab⟩, hr⟩ :=
      replay_cases s.tab.gate.active s.tab.gate.render (s.setGate {})
    rcases hr with ⟨-, hshared, htold⟩ | ⟨r, -, renders⟩
    · exact .keeps (by rw [htab]; rfl) (by rw [htab]; rfl) (by rw [hshared]; rfl) htold
    · have renders : Renders r.enabled s _ := renders.of_same rfl rfl rfl
      exact renders.repaints (by rw [htab]; rfl) (by rw [htab]; rfl)

theorem repaints_initRendering (new : SurfaceId) (hl : s.tab.state.isLive = true) :
    Repaints s (.ok (s.initRendering new)) := by
  unfold initRendering
  split
  · exact .of_eq rfl rfl rfl rfl
  · next hother =>
    dsimp only
    split
    · exact .of_eq rfl rfl rfl rfl
    · next granted hfree =>
      exact .attaches new granted hother hl hfree rfl rfl rfl rfl rfl

theorem repaints_request (build : Build) {e : Envelope} (hl : s.tab.state.isLive = true)
    (ha : (Act.request e).tearsDown = false) : Repaints s (act build (.request e) s) := by
  obtain ⟨tab, channel, priority, request⟩ := e
  simp only [act, handle, hl, if_true, handleLive]
  cases request with
  | destroy => simp [Act.tearsDown, Act.asksDestroy] at ha
  | channelClosed => simp [Act.tearsDown, Act.losesLink] at ha
  | setRenderState enabled force epoch => exact repaints_requestRender enabled force epoch s
  | paintWhileInterrupting epoch force => exact repaints_paintWhileInterrupting epoch force s
  | setActive active => exact repaints_setActive active s
  | initRendering surface => exact repaints_initRendering surface hl
  | pointerMove m => exact (feeds_pointerMove m s).repaints
  | synthPointerMove m => exact (feeds_pointerEvent _ s).repaints
  | button b => exact (feeds_pointerEvent _ s).repaints
  | wheel w => exact (feeds_wheelEvent w _ s).repaints
  | key k => exact (feeds_keyEvent k s).repaints

/-- Whatever is done to a tab, it is one of four things for the surfaces. -/
theorem repaints_act (build : Build) (a : Act) (h : s.tab.Sound) :
    Repaints s (act build a s) := by
  cases does_act build a h with
  | works live ha _ =>
    cases a with
    | request e => exact repaints_request build live ha
    | flush => exact (feeds_flushInput s).repaints
    | addBlocker => exact repaints_addBlocker build s
    | removeBlocker => exact repaints_removeBlocker build live
    | destroy => simp [Act.tearsDown, Act.asksDestroy] at ha
    | pass d =>
      rw [act, runDelete_of_live d live]
      exact .of_eq rfl rfl rfl rfl
    | push e => exact .of_eq rfl rfl rfl rfl
    | hangUp =>
      rw [act, hangUp]
      split <;> exact .of_eq rfl rfl rfl rfl
    | drop => simp [Act.tearsDown] at ha
  | hungUp _ _ _ heq =>
    rw [heq]
    exact .of_eq rfl rfl rfl rfl
  | tornDown _ _ ht => exact .leaves (by rw [ht.tab]; rfl) (by rw [ht.tab]; rfl) ht.surfaces
  | rests live hr =>
    have idles := hr.idles live
    obtain ⟨stage, ipcOpen, link, htab⟩ := idles.tab
    refine .keeps (by rw [htab]) (by rw [htab]) idles.surfaces ?_
    rcases idles.trace with ht | ⟨l, -, -, ht, -⟩
    · rw [ht]
      rfl
    · rw [ht]
      rfl

/-! ## Entries of other surfaces -/

theorem get?_dropAny_of_ne {surfaces : Surfaces} {surface : SurfaceId}
    {old : Option SurfaceId} (h : old ≠ some surface) (handle : Option Handle) :
    (surfaces.dropAny old handle).entries.get? surface = surfaces.entries.get? surface := by
  rw [Surfaces.entries_dropAny]
  cases old with
  | none => rfl
  | some old =>
    refine Table.get?_erase_of_ne ?_ _
    rintro rfl
    exact h rfl

theorem get?_markSurface_of_ne {surface : SurfaceId} (h : s.tab.surface ≠ some surface)
    (visible : Bool) : (s.markSurface visible).shared.surfaces.entries.get? surface =
      s.shared.surfaces.entries.get? surface := by
  cases hs : s.tab.surface with
  | none => rw [markSurface_of_none hs]
  | some own =>
    rw [surfaces_markSurface hs]
    refine Table.get?_modify_of_ne ?_ _ _
    rintro rfl
    exact h hs

/-- An entry of a surface that the tab does not hold is left as it was. -/
theorem Repaints.spares (h : Repaints s o) {surface : SurfaceId} {e : SurfaceEntry}
    (other : s.tab.surface ≠ some surface)
    (he : s.shared.surfaces.entries.get? surface = some e) :
    o.state.shared.surfaces.entries.get? surface = some e := by
  cases h with
  | keeps _ _ surfaces => rw [surfaces, he]
  | marks visible _ _ surfaces => rw [surfaces, get?_markSurface_of_ne other, he]
  | leaves _ _ surfaces => rw [surfaces, get?_dropAny_of_ne other, he]
  | attaches new granted _ _ free _ _ _ surfaces =>
    unfold Surfaces.register? at free
    split at free
    · cases free
    next hfree =>
    cases free
    have hne : surface ≠ new := by
      rintro rfl
      simp [Surfaces.issue, Table.contains, he] at hfree
    rw [surfaces, Surfaces.setVisible, Table.get?_modify_of_ne hne, get?_dropAny_of_ne other,
      Table.get?_insert_of_ne hne]
    exact he

end Seat

end TabHost
