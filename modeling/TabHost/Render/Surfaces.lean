import TabHost.Protocol.Link

/-!
# Surfaces

A tab that paints registers the surface it paints into, so that others can find the tab
by the surface and post to it. What is registered is a `Handle` of the tab. The registry
does not keep a handle alive: a handle is alive as long as somebody holds a lease on it,
and an entry whose handle is dead is as good as none for looking up, though it still
occupies its surface.

An entry also says whether the surface is visible; a newly registered surface is not.
-/

namespace TabHost

/-- The face of a tab that others get to see for one of its surfaces. Handles are told
apart by their serial numbers. -/
structure Handle where
  serial : Nat
  tab : TabId
  surface : SurfaceId
  deriving DecidableEq

namespace Handle

/-- A request to the tab of a handle. -/
def envelope (h : Handle) (c : Channel) (p : Priority) (r : Request) : Envelope :=
  { tab := h.tab, channel := c, priority := p, request := r }

/-- Posts a request to the tab of a handle, if the inbox is still there. -/
def post? (h : Handle) (c : Channel) (p : Priority) (r : Request) (inbox : Option Inbox) :
    Except LinkError Inbox :=
  match inbox with
  | none => .error .closed
  | some waiting => .ok (waiting ++ [h.envelope c p r])

end Handle

/-- What is registered for a surface. -/
structure SurfaceEntry where
  handle : Handle
  visible : Bool
  deriving DecidableEq

/-- The surfaces of all tabs. -/
structure Surfaces where
  entries : Table SurfaceId SurfaceEntry := .empty
  /-- The serial numbers of the handles that are alive, once for each lease. -/
  leases : List Nat := []
  nextSerial : Nat := 0

namespace Surfaces

/-! ## Handles -/

/-- A new handle with one lease on it. -/
def issue (tab : TabId) (surface : SurfaceId) (s : Surfaces) : Handle × Surfaces :=
  ({ serial := s.nextSerial, tab := tab, surface := surface },
    { s with leases := s.nextSerial :: s.leases, nextSerial := s.nextSerial + 1 })

/-- One more lease on a handle. -/
def retain (h : Handle) (s : Surfaces) : Surfaces := { s with leases := h.serial :: s.leases }

/-- One lease on a handle less. -/
def release (h : Handle) (s : Surfaces) : Surfaces := { s with leases := s.leases.erase h.serial }

/-- Whether somebody still holds a lease on a handle. -/
def isAlive (s : Surfaces) (h : Handle) : Bool := h.serial ∈ s.leases

/-! ## Entries -/

/-- Registers a handle for a surface: none if the surface is occupied. -/
def register? (surface : SurfaceId) (h : Handle) (s : Surfaces) : Option Surfaces :=
  if s.entries.contains surface then none
  else some { s with entries := s.entries.insert surface { handle := h, visible := false } }

/-- The handle registered for a surface, if it is alive. -/
def lookup (s : Surfaces) (surface : SurfaceId) : Option Handle :=
  match s.entries.get? surface with
  | none => none
  | some e => if s.isAlive e.handle then some e.handle else none

/-- Whether there is an entry for a surface, its handle alive or not. -/
def isOccupied (s : Surfaces) (surface : SurfaceId) : Bool := s.entries.contains surface

/-- Removes the entry of a surface, if there is one. -/
def unregister (surface : SurfaceId) (s : Surfaces) : Surfaces :=
  { s with entries := s.entries.erase surface }

/-- Removes the entry of a surface, if a surface is given. -/
def unregisterAny (surface : Option SurfaceId) (s : Surfaces) : Surfaces :=
  match surface with
  | none => s
  | some surface => s.unregister surface

/-- Gives up a lease on a handle, if a handle is given. -/
def releaseAny (h : Option Handle) (s : Surfaces) : Surfaces :=
  match h with
  | none => s
  | some h => s.release h

/-- Removes the entry of a surface and gives up a lease on a handle, as far as they are
given. -/
def dropAny (surface : Option SurfaceId) (h : Option Handle) (s : Surfaces) : Surfaces :=
  (s.unregisterAny surface).releaseAny h

/-- Notes whether a surface is visible, if there is an entry for it. -/
def setVisible (surface : SurfaceId) (visible : Bool) (s : Surfaces) : Surfaces :=
  { s with entries := s.entries.modify surface fun e => { e with visible := visible } }

/-- Whether an entry is marked visible and its handle alive. -/
def shows (s : Surfaces) (e : SurfaceEntry) : Bool := e.visible && s.isAlive e.handle

/-- Whether a surface is visible. -/
def isVisible (s : Surfaces) (surface : SurfaceId) : Bool :=
  match s.entries.get? surface with
  | none => false
  | some e => s.shows e

/-- The visible surfaces, ascending. -/
def visible (s : Surfaces) : List SurfaceId :=
  (s.entries.entries.filter fun b => s.shows b.2).map Prod.fst

/-- The number of entries. -/
def size (s : Surfaces) : Nat := s.entries.size

/-- Removes all entries. -/
def clear (s : Surfaces) : Surfaces := { s with entries := .empty }

end Surfaces

/-- Why a surface is not registered. -/
inductive SurfaceError where
  | alreadyRegistered (surface : SurfaceId)
  deriving DecidableEq

def SurfaceError.message : SurfaceError → String
  | .alreadyRegistered surface =>
    "surface " ++ toString surface.value.toNat ++ " is already registered"

end TabHost
