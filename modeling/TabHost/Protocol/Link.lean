import TabHost.Protocol.Message

/-!
# Links and inboxes

A `ParentLink` is the way from a tab to its parent. It is open until the tab has said
farewell over it or the other end has gone away. Over it a tab sends into the stream that
all tabs of a host share, or into one of its own.

An inbox holds the envelopes that were posted to a host and not yet taken out.
-/

namespace TabHost

/-- Why a message was not sent. -/
inductive LinkError where
  | closed
  deriving DecidableEq

def LinkError.message : LinkError → String
  | .closed => "channel to the parent is closed"

/-- Where a link leads. -/
inductive Route where
  | shared
  | own
  deriving DecidableEq, Inhabited

/-- The way from a tab to its parent. -/
structure ParentLink where
  tab : TabId
  route : Route := .shared
  /-- The tab has not said farewell. -/
  speaking : Bool := true
  /-- The other end is there. -/
  heard : Bool := true
  deriving DecidableEq

namespace ParentLink

def isOpen (l : ParentLink) : Bool := l.speaking && l.heard

/-- What is sent, and the link after it; none if the link is not open. -/
def send? (r : Reply) (l : ParentLink) : Option (Outgoing × ParentLink) :=
  if l.isOpen then
    some
      ({ tab := l.tab, reply := r },
        match r with
        | .channelClose => { l with speaking := false }
        | _ => l)
  else none

/-- The link after the other end has gone away. -/
def hangUp (l : ParentLink) : ParentLink := { l with heard := false }

end ParentLink

/-- Envelopes that were posted and not yet taken out, oldest first. -/
abbrev Inbox := List Envelope

end TabHost
