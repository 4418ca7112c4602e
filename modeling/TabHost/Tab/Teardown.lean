import TabHost.Tab.Basic

/-!
# Tearing a tab down

A tab is torn down when the parent asks for it, or when its link is lost. At once, its
window is gone: nothing of its input, its gate, its surface is left, and content is told.
A tab whose destruction was asked for then waits for the two passes of its delete before
it says farewell and is deleted; a tab that lost its link is deleted on the spot.
-/

namespace TabHost

namespace Seat

variable {σ : Type} [Content σ]

/-- Drops all input, the gate and the surface. -/
def clearWindow (s : Seat σ) : Seat σ :=
  { tab :=
      { s.tab with
        surface := none
        handle := none
        moves := none
        wheel := {}
        keys := {}
        gate := {} }
    shared :=
      { s.shared with surfaces := s.shared.surfaces.dropAny s.tab.surface s.tab.handle } }

/-- Tells content once that its window is gone. -/
def destroyContent : Operation σ := fun s =>
  if s.tab.contentDestroyed then .ok s
  else
    (notify .destroy s).map fun s => { s with tab := { s.tab with contentDestroyed := true } }

/-- The window of the tab is gone. A second time nothing happens. -/
def destroyWindow : Operation σ := fun s => destroyContent s.clearWindow

/-- Sets the stage of life. -/
def setState (state : Lifecycle) (s : Seat σ) : Seat σ :=
  { s with tab := { s.tab with state := state } }

/-- Starts the destruction of a live tab. -/
def destroy (build : Build) : Operation σ := fun s =>
  if s.tab.state.isLive then
    (destroyWindow s).map fun s =>
      (s.setState .destroying).onQueue (·.schedule { tab := s.tab.id })
  else .violation build s.tab.id .destroyedTwice s

/-- The link to the parent was lost. A delete under way goes on, and says no farewell. -/
def channelClosed : Operation σ := fun s =>
  (destroyWindow { s with tab := { s.tab with ipcOpen := false } }).map fun s =>
    if s.tab.state.isLive then s.setState .deleted else s

/-- Says farewell and gives the link up. -/
def finishDelete : Operation σ := fun s =>
  (send .channelClose s).map fun s =>
    { s with tab := { s.tab with ipcOpen := false, link := none, state := .deleted } }

/-- A pass of the delayed delete. A pass that does not fit the stage of life is stale. -/
def runDelete (d : DeletePass) : Operation σ := fun s =>
  match s.tab.state, d.ready with
  | .destroying, false => .ok ((s.setState .awaitingSecondPass).onQueue (·.schedule d.second))
  | .awaitingSecondPass, true => finishDelete s
  | _, _ => .ok s

end Seat

end TabHost
