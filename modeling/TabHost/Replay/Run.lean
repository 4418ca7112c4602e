import TabHost.Content.Headless
import TabHost.Host.Run
import TabHost.Replay.Script

/-!
# Replaying scripts

A replay is a host of headless tabs on a clock of its own. Its steps are applied one
after the other; envelopes wait until a `run` step or the end.
-/

namespace TabHost

namespace Replay

/-- A host before the first step. -/
def start (settings : Settings) : Host Headless := { settings := settings }

/-- Applies a step. A tab that is there already is not created again. -/
def apply (build : Build) (step : Step) (h : Host Headless) :
    Except HostError (Outcome Effect (Host Headless)) :=
  match step with
  | .createTab tab visible cost =>
    h.create? tab { visible := visible, cost := cost } { tab := tab }
  | .send e => .ok (.ok (h.post e))
  | .addBlocker tab => .ok (h.addBlocker build tab)
  | .removeBlocker tab => .ok (h.removeBlocker build tab)
  | .destroy tab => .ok (h.destroy build tab)
  | .advance time => .ok (h.advance time)
  | .run => .ok (h.start build)

/-- Does all that is left at the end. -/
def finish (build : Build) (h : Host Headless) : Outcome Effect (Host Headless) := h.start build

end Replay

end TabHost
