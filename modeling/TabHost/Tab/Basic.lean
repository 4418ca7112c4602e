import TabHost.Batch.Keys
import TabHost.Batch.Moves
import TabHost.Batch.Wheel
import TabHost.Host.RunQueue
import TabHost.Protocol.Link
import TabHost.Render.Gate
import TabHost.Render.Surfaces
import TabHost.Settings
import TabHost.Tab.Lifecycle

/-!
# Tabs

A `Tab` is the state of one tab, its content included. What all tabs of a host share, the
clock, the surfaces and the run queue, is `Shared`; a tab together with it is a `Seat`,
and the operations of a tab act on seats. Their effects are calls of content and messages
to the parent.

An id may be used again once its tab is gone. `incarnations` cuts the calls of a trace
that belong to one id at the creations of the tab.
-/

namespace TabHost

/-- What an operation does to the world around the tabs. -/
inductive Effect where
  /-- A tab was created. -/
  | created (tab : TabId)
  /-- Content of a tab was called. -/
  | call (tab : TabId) (c : Call)
  /-- A message went to the parent. -/
  | sent (route : Route) (o : Outgoing)

namespace Effect

/-- The message of an effect into the stream that all tabs share. -/
def shared? : Effect → Option Outgoing
  | .sent .shared o => some o
  | _ => none

/-- The message of an effect over a link of the tab's own. -/
def own? : Effect → Option Outgoing
  | .sent .own o => some o
  | _ => none

/-- The tab whose content was called. -/
def called? : Effect → Option TabId
  | .call t _ => some t
  | _ => none

/-- The call of the content of a tab. -/
def callOf? (tab : TabId) : Effect → Option Call
  | .call t c => if t = tab then some c else none
  | _ => none

/-- Whether a tab was created. -/
def creates (tab : TabId) : Effect → Bool
  | .created t => t = tab
  | _ => false

end Effect

/-- The calls of the content of a tab. -/
def callsOf (tab : TabId) (trace : List Effect) : List Call :=
  trace.filterMap (Effect.callOf? tab)

/-- The calls of the content of a tab since each of its creations. -/
def incarnations (tab : TabId) : List Effect → List (List Call)
  | [] => []
  | e :: rest =>
    if e.creates tab then
      callsOf tab (rest.takeWhile fun e => !e.creates tab) :: incarnations tab rest
    else incarnations tab rest

/-- The messages into the shared stream, in the order in which they were sent. -/
def Outcome.outgoing (o : Outcome Effect α) : List Outgoing := o.trace.filterMap Effect.shared?

/-- A tab. -/
structure Tab (σ : Type) where
  id : TabId
  settings : Settings
  content : σ
  state : Lifecycle := .created
  /-- Whether the link to the parent is taken to be open. -/
  ipcOpen : Bool := false
  link : Option ParentLink := none
  contentDestroyed : Bool := false
  /-- The surface that the tab paints into. -/
  surface : Option SurfaceId := none
  /-- What is registered for that surface. -/
  handle : Option Handle := none
  epoch : Epoch := {}
  gate : Gate := {}
  /-- Pointer input that content has not seen; none once the tab is torn down. -/
  moves : Option MoveBatch := some {}
  wheel : WheelBatch := {}
  keys : KeyFilter := {}

/-- The record of the moves of a pointer that a tab keeps back. -/
def Tab.pendingMove (t : Tab σ) (p : PointerId) : Option MoveRecord :=
  t.moves.bind fun b => b.record? p

/-- What the tabs of a host share. -/
structure Shared where
  clock : Duration := .zero
  surfaces : Surfaces := {}
  queue : RunQueue := {}

/-- A tab and what it shares with others. -/
structure Seat (σ : Type) where
  tab : Tab σ
  shared : Shared

/-- An operation of a tab. -/
abbrev Operation (σ : Type) := Seat σ → Outcome Effect (Seat σ)

/-- A new tab, whose content has its way back into the tab. -/
def Tab.create [Content σ] (id : TabId) (settings : Settings) (content : σ) : Tab σ :=
  { id := id, settings := settings, content := Content.attach content }

/-- Whether content has a way to push events into a tab. -/
def Tab.isConnected (t : Tab σ) : Bool := t.moves.isSome

/-- The tab after content pushed an event into it, outside of any dispatch. -/
def Tab.push (e : PointerEvent) (t : Tab σ) : Tab σ :=
  { t with moves := t.moves.map (MoveBatch.enqueue e) }

/-- The tab after the other end of its link has gone away. -/
def Tab.hangUp (t : Tab σ) : Tab σ := { t with link := t.link.map ParentLink.hangUp }

/-- A tab whose link to the parent is there. -/
def Tab.connected (t : Tab σ) (l : ParentLink) : Tab σ :=
  { t with ipcOpen := l.isOpen, link := some l, state := .active }

namespace Seat

variable {σ : Type} [Content σ]

/-- Changes the surfaces. -/
def onSurfaces (f : Surfaces → Surfaces) (s : Seat σ) : Seat σ :=
  { s with shared := { s.shared with surfaces := f s.shared.surfaces } }

/-- Changes the run queue. -/
def onQueue (f : RunQueue → RunQueue) (s : Seat σ) : Seat σ :=
  { s with shared := { s.shared with queue := f s.shared.queue } }

/-! ## Content -/

/-- Tells content of a change. -/
def notify (n : Notice) : Operation σ := fun s =>
  .emit (.call s.tab.id (.notice n))
    { s with tab := { s.tab with content := Content.notify n s.tab.content } }

/-- The content of a tab in its surroundings. -/
def stage (s : Seat σ) : Stage σ :=
  { content := s.tab.content
    clock := s.shared.clock
    queue := match s.tab.moves with
      | none => []
      | some b => b.queue }

/-- The seat after its content has been on stage. What content pushes into a tab that is
torn down is lost. -/
def leaveStage (s : Seat σ) (stage : Stage σ) : Seat σ :=
  { tab :=
      { s.tab with
        content := stage.content
        moves := s.tab.moves.map fun b => { b with queue := stage.queue } }
    shared := { s.shared with clock := stage.clock } }

/-- Lets content handle events. -/
def perform (f : Stage σ → Outcome Call (Stage σ)) : Operation σ := fun s =>
  ((f s.stage).map s.leaveStage).lift (.call s.tab.id)

/-! ## The parent -/

/-- Sends a message to the parent, if the way there is open; else it is dropped. -/
def send (r : Reply) : Operation σ := fun s =>
  if s.tab.ipcOpen then
    match s.tab.link with
    | none => .ok s
    | some l =>
      match l.send? r with
      | none => .ok s
      | some (o, l') => .emit (.sent l.route o) { s with tab := { s.tab with link := some l' } }
  else .ok s

/-- The link to the parent is there. -/
def connect (build : Build) (l : ParentLink) : Operation σ := fun s =>
  if s.tab.state = .created then .ok { s with tab := s.tab.connected l }
  else .violation build s.tab.id .openedTwice s

end Seat

end TabHost
