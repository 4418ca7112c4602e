import TabHost.Protocol.Message

/-!
# Violations and faults

A parent that breaks the protocol commits a `Violation`. A checked build stops at it with
a `Fault`; an unchecked build passes over it. Arithmetic on durations that has no result
is a fault in every build, and a counter that overflows is one in a checked build.
-/

namespace TabHost

/-- Whether violations of the protocol stop the program. -/
inductive Build where
  | checked
  | unchecked
  deriving DecidableEq, Inhabited

/-- What a parent did against the protocol. -/
inductive Violation where
  | openedTwice
  | destroyedTwice
  /-- A request of this name for a tab that is deleted, or for one that never was. -/
  | unexpected (name : String)
  | notBlocked
  | blockerForUnknownTab
  | destroyForUnknownTab
  | destroyAfterDelete
  deriving DecidableEq

/-- The wording of a gate that is asked to release a blocker it does not hold. -/
def notBlockedMessage : String := "no pending blocker to release"

namespace Violation

def what : Violation → String
  | .openedTwice => "channel opened twice"
  | .destroyedTwice => "destroy while already tearing down"
  | .unexpected name => name
  | .notBlocked => notBlockedMessage
  | .blockerForUnknownTab => "blocker for unknown tab"
  | .destroyForUnknownTab => "destroy for unknown tab"
  | .destroyAfterDelete => "destroy after delete"

end Violation

/-- What stops the program. -/
inductive Fault where
  | violation (tab : TabId) (v : Violation)
  | durationOverflow
  | counterOverflow
  deriving DecidableEq

namespace Fault

def message : Fault → String
  | .violation tab v =>
    "protocol violation on tab " ++ toString tab.value.toNat ++ ": " ++ v.what
  | .durationOverflow => "overflow when adding durations"
  | .counterOverflow => "attempt to add with overflow"

end Fault

/-- The epoch after an epoch. Past the last one a checked build stops and an unchecked one
starts again from zero. -/
def Epoch.next (build : Build) (e : Epoch) : Except Fault Epoch :=
  if build = .checked ∧ e.value.toNat + 1 = UInt64.size then .error .counterOverflow
  else .ok { value := e.value + 1 }

/-- Why a host does not create a tab. -/
inductive HostError where
  | duplicateTab (tab : TabId)
  deriving DecidableEq

namespace HostError

def message : HostError → String
  | .duplicateTab tab => "tab " ++ toString tab.value.toNat ++ " already exists"

end HostError

end TabHost
