/-!
# The life of a tab

A tab is created, becomes active when its link to the parent is there, and goes through
two stages of destruction before it is deleted. It is live while it is created or active.
-/

namespace TabHost

/-- Where a tab is between creation and deletion. -/
inductive Lifecycle where
  | created
  /-- The link to the parent is there. -/
  | active
  /-- The tab is to be destroyed; the first pass of its delete waits. -/
  | destroying
  /-- The first pass is done; the second one waits. -/
  | awaitingSecondPass
  | deleted
  deriving DecidableEq, Inhabited

namespace Lifecycle

def name : Lifecycle → String
  | .created => "created"
  | .active => "active"
  | .destroying => "destroying"
  | .awaitingSecondPass => "awaiting_second_pass"
  | .deleted => "deleted"

def isLive : Lifecycle → Bool
  | .created => true
  | .active => true
  | _ => false

def isTearingDown : Lifecycle → Bool
  | .destroying => true
  | .awaitingSecondPass => true
  | _ => false

/-- The stages in their order. -/
def stage : Lifecycle → Nat
  | .created => 0
  | .active => 1
  | .destroying => 2
  | .awaitingSecondPass => 3
  | .deleted => 4

end Lifecycle

end TabHost
