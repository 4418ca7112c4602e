import TabHost.Tab.Input
import TabHost.Tab.Render
import TabHost.Tab.Teardown

/-!
# Requests to a tab

What a tab does with an envelope. A tab that is being torn down heeds only requests about
its own end, and a deleted one should get no others.
-/

namespace TabHost

namespace Seat

variable {σ : Type} [Content σ]

/-- What a live tab does with a request. -/
def handleLive (build : Build) (e : Envelope) : Operation σ := fun s =>
  match e.request with
  | .destroy => destroy build s
  | .channelClosed => channelClosed s
  | .setRenderState enabled force epoch => requestRender enabled force epoch s
  | .paintWhileInterrupting epoch force => paintWhileInterrupting epoch force s
  | .setActive active => setActive active s
  | .initRendering surface => .ok (s.initRendering surface)
  | .pointerMove m => pointerMove m s
  | .synthPointerMove m => pointerEvent (.move m) s
  | .button b => pointerEvent (.button b) s
  | .wheel w =>
    wheelEvent w (s.shared.queue.nextIsWheel s.tab.id e.channel e.priority) s
  | .key k => keyEvent k s

/-- What a tab does with a request once it is being torn down or deleted. -/
def handleDying (build : Build) (e : Envelope) : Operation σ := fun s =>
  match e.request, s.tab.state with
  | .destroy, _ => destroy build s
  | .channelClosed, _ => channelClosed s
  | r, .deleted => .violation build s.tab.id (.unexpected r.name) s
  | _, _ => .ok s

/-- What a tab does with a request. -/
def handle (build : Build) (e : Envelope) : Operation σ := fun s =>
  if s.tab.state.isLive then handleLive build e s else handleDying build e s

end Seat

end TabHost
