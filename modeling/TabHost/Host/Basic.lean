import TabHost.Tab.Requests

/-!
# Hosts

A `Host` is a process with its tabs: what they share, the inbox into which the parent and
others post envelopes, and the ids of the tabs that were deleted. Work that is still
queued for a deleted tab is dropped without ado, while an envelope for a tab that never
was breaks the protocol.

An operation on one tab acts on that tab and on what is shared, and on nothing else
(`get?_onTab_of_ne`).
-/

namespace TabHost

/-- A process with its tabs. -/
structure Host (σ : Type) where
  settings : Settings := {}
  shared : Shared := {}
  tabs : Table TabId (Tab σ) := .empty
  /-- The tabs that were deleted and not created again. -/
  retired : List TabId := []
  inbox : Inbox := []

namespace Host

variable {σ : Type} [Content σ]

/-! ## Creation -/

/-- Creates a tab over a link to its parent, if there is no tab of that id. -/
def create? (tab : TabId) (content : σ) (link : ParentLink) (h : Host σ) :
    Except HostError (Outcome Effect (Host σ)) :=
  if h.tabs.contains tab then .error (.duplicateTab tab)
  else
    .ok <| .emit (.created tab)
      { h with
        tabs := h.tabs.insert tab ((Tab.create tab h.settings content).connected link)
        retired := h.retired.filter fun t => t ≠ tab }

/-! ## Operations of one tab -/

/-- An operation of a tab, if the tab is there. -/
def onTab (tab : TabId) (op : Operation σ) (h : Host σ) : Outcome Effect (Host σ) :=
  match h.tabs.get? tab with
  | none => .ok h
  | some t =>
    (op { tab := t, shared := h.shared }).map fun s =>
      { h with tabs := h.tabs.insert tab s.tab, shared := s.shared }

/-- An operation of a tab; without the tab it breaks the protocol. -/
def onHosted (build : Build) (tab : TabId) (v : Violation) (op : Operation σ) (h : Host σ) :
    Outcome Effect (Host σ) :=
  if h.tabs.contains tab then h.onTab tab op else .violation build tab v h

def addBlocker (build : Build) (tab : TabId) (h : Host σ) : Outcome Effect (Host σ) :=
  h.onHosted build tab .blockerForUnknownTab (Seat.addBlocker build)

def removeBlocker (build : Build) (tab : TabId) (h : Host σ) : Outcome Effect (Host σ) :=
  h.onHosted build tab .blockerForUnknownTab (Seat.removeBlocker build)

/-- Destroys a tab, as if the parent had asked for it. -/
def destroy (build : Build) (tab : TabId) (h : Host σ) : Outcome Effect (Host σ) :=
  h.onHosted build tab .destroyForUnknownTab (Seat.destroy build)

/-- The other end of the link of a tab goes away. -/
def hangUp (tab : TabId) (h : Host σ) : Host σ :=
  { h with tabs := h.tabs.modify tab Tab.hangUp }

/-- Content of a tab pushes an event into it, outside of any dispatch. -/
def push (tab : TabId) (e : PointerEvent) (h : Host σ) : Host σ :=
  { h with tabs := h.tabs.modify tab (Tab.push e) }

/-! ## What is shared -/

/-- Posts an envelope. -/
def post (e : Envelope) (h : Host σ) : Host σ := { h with inbox := h.inbox ++ [e] }

/-- Changes the surfaces. -/
def onSurfaces (f : Surfaces → Surfaces) (h : Host σ) : Host σ :=
  { h with shared := { h.shared with surfaces := f h.shared.surfaces } }

/-- Sets the clock. -/
def setClock (t : Duration) (h : Host σ) : Host σ :=
  { h with shared := { h.shared with clock := t } }

/-- Lets time pass. -/
def advance (time : Duration) (h : Host σ) : Outcome Effect (Host σ) :=
  match h.shared.clock.add? time with
  | none => .fail .durationOverflow h
  | some t => .ok (h.setClock t)

/-! ## Dropping tabs -/

/-- Drops a tab: its window goes, if it is not gone yet, without a farewell. -/
def dropTab (tab : TabId) (h : Host σ) : Outcome Effect (Host σ) :=
  (h.onTab tab Seat.destroyWindow).map fun h => { h with tabs := h.tabs.erase tab }

/-- Drops the tabs of a list. -/
def dropTabs : List TabId → Host σ → Outcome Effect (Host σ)
  | [], h => .ok h
  | t :: rest, h => (h.dropTab t).andThen (dropTabs rest)

/-- Drops all tabs and all surfaces. Work that waits goes on waiting. -/
def shutdown (h : Host σ) : Outcome Effect (Host σ) :=
  (h.dropTabs h.tabs.keys).map fun h => h.onSurfaces Surfaces.clear

/-! ## Other tabs -/

omit [Content σ] in
theorem get?_onTab_of_ne {tab other : TabId} (hne : other ≠ tab) (op : Operation σ)
    (h : Host σ) : (h.onTab tab op).state.tabs.get? other = h.tabs.get? other := by
  have hr : rank tab ≠ rank other := fun e => hne (Ranked.rank_inj _ _ e.symm)
  unfold onTab
  split
  · rfl
  · simp [Table.get?_insert, hr]

end Host

end TabHost
