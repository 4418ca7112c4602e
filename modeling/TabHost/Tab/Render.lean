import TabHost.Tab.Basic

/-!
# Rendering and activation

Requests about rendering are ordered by their epochs alone; one that is not newer than
all before is stale. Accepted requests and changes of the activation are put off while
the tab is blocked.

A tab that is to render and is visible already only acknowledges, unless a repaint is
forced. A surface belongs to at most one tab.
-/

namespace TabHost

namespace Seat

variable {σ : Type} [Content σ]

/-! ## Surfaces -/

/-- Marks the surface of the tab, if it has one. -/
def markSurface (visible : Bool) (s : Seat σ) : Seat σ :=
  match s.tab.surface with
  | none => s
  | some surface => s.onSurfaces (·.setVisible surface visible)

/-- The tab is to paint into a surface. If the surface is taken, nothing changes. -/
def initRendering (surface : SurfaceId) (s : Seat σ) : Seat σ :=
  if s.tab.surface = some surface then s
  else
    let (h, surfaces) := s.shared.surfaces.issue s.tab.id surface
    match surfaces.register? surface h with
    | none => s
    | some surfaces =>
      { tab := { s.tab with surface := some surface, handle := some h }
        shared :=
          { s.shared with
            surfaces :=
              (surfaces.dropAny s.tab.surface s.tab.handle).setVisible surface
                (Content.isVisible s.tab.content) } }

/-! ## Render states -/

/-- Stops rendering. -/
def disable : Operation σ := fun s =>
  (notify .makeHidden (s.markSurface false)).andThen (notify .clearCachedResources)

/-- Paints now, or as soon as it is safe. -/
def paint : Operation σ := fun s =>
  notify (if Content.isSafeToRunScript s.tab.content then .paintNow else .schedulePaint) s

/-- Starts rendering. -/
def enable : Operation σ := fun s =>
  (notify .makeVisible (s.markSurface true)).andThen paint

/-- Whether there is nothing to do but to acknowledge. -/
def isUpToDate (forceRepaint : Bool) (s : Seat σ) : Bool :=
  !forceRepaint && s.tab.ipcOpen && Content.isVisible s.tab.content

/-- Brings a tab into a render state. -/
def applyRender (enabled forceRepaint : Bool) (epoch : Epoch) : Operation σ := fun s =>
  (notify (.epoch epoch) s).andThen fun s =>
    if enabled then
      if s.isUpToDate forceRepaint then send (.acknowledge epoch) s else enable s
    else disable s

/-- Sets the gate. -/
def setGate (g : Gate) (s : Seat σ) : Seat σ := { s with tab := { s.tab with gate := g } }

/-- A request for a render state. -/
def requestRender (enabled forceRepaint : Bool) (epoch : Epoch) : Operation σ := fun s =>
  match s.tab.epoch.accept? epoch with
  | none => .ok s
  | some current =>
    let s : Seat σ := { s with tab := { s.tab with epoch := current } }
    match s.tab.gate.captureRender? { enabled := enabled, epoch := epoch } with
    | some g => .ok (s.setGate g)
    | none => applyRender enabled forceRepaint epoch s

/-- A request for a paint while scripts keep content busy; without a surface or a link
there is nothing to paint. -/
def paintWhileInterrupting (epoch : Epoch) (forceRepaint : Bool) : Operation σ := fun s =>
  if s.tab.ipcOpen && s.tab.surface.isSome then requestRender true forceRepaint epoch s else .ok s

/-! ## Activation and the gate -/

/-- A change of the activation. -/
def setActive (active : Bool) : Operation σ := fun s =>
  match s.tab.gate.captureActive? active with
  | some g => .ok (s.setGate g)
  | none => notify (.active active) s

/-- Tells content of a change of the activation that was put off. -/
def replayActive (active : Option Bool) : Operation σ := fun s =>
  match active with
  | none => .ok s
  | some a => notify (.active a) s

/-- Brings a tab into a render state that was put off; its epoch was accepted then. -/
def replayRender (render : Option PendingRender) : Operation σ := fun s =>
  match render with
  | none => .ok s
  | some r => applyRender r.enabled false r.epoch s

/-- Catches up on what was put off. -/
def replay (r : GateReplay) : Operation σ := fun s =>
  (replayActive r.active s).andThen (replayRender r.render)

/-- One more blocker; a tab that is torn down has no use for it. -/
def addBlocker (build : Build) : Operation σ := fun s =>
  if s.tab.state.isLive then (s.tab.gate.addBlocker build).map fun g => s.setGate g else .ok s

/-- One blocker less. -/
def removeBlocker (build : Build) : Operation σ := fun s =>
  if s.tab.state.isLive then
    match s.tab.gate.removeBlocker? with
    | none => .violation build s.tab.id .notBlocked s
    | some (g, none) => .ok (s.setGate g)
    | some (g, some r) => replay r (s.setGate g)
  else .ok s

end Seat

end TabHost
