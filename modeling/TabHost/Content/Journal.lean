import TabHost.Content.Basic

/-!
# Journals

A `Journal` sums up the calls that content received: the events of each kind in order,
the activations, paints and epochs it was told of, and whether it is visible or
destroyed.
-/

namespace TabHost

/-- When a paint was asked for. -/
inductive Paint where
  | now
  | scheduled
  deriving DecidableEq

/-- What content was called for, sorted by kind. -/
structure Journal where
  pointer : List PointerEvent := []
  wheel : List WheelEvent := []
  keys : List KeyEvent := []
  activations : List Bool := []
  paints : List Paint := []
  epochs : List Epoch := []
  cacheClears : Nat := 0
  visible : Bool := false
  destroyed : Bool := false

namespace Journal

/-- Adds a notice to a journal. -/
def note (j : Journal) : Notice → Journal
  | .active a => { j with activations := j.activations ++ [a] }
  | .epoch e => { j with epochs := j.epochs ++ [e] }
  | .makeVisible => { j with visible := true }
  | .makeHidden => { j with visible := false }
  | .clearCachedResources => { j with cacheClears := j.cacheClears + 1 }
  | .paintNow => { j with paints := j.paints ++ [.now] }
  | .schedulePaint => { j with paints := j.paints ++ [.scheduled] }
  | .destroy => { j with destroyed := true }

/-- Adds a call to a journal. -/
def record (j : Journal) : Call → Journal
  | .pointer e => { j with pointer := j.pointer ++ [e] }
  | .wheel e => { j with wheel := j.wheel ++ [e] }
  | .key e _ => { j with keys := j.keys ++ [e] }
  | .notice n => j.note n

/-- The journal after further calls. -/
def recordAll (j : Journal) (calls : List Call) : Journal := calls.foldl record j

/-- The journal of content that was visible or not at first. -/
def ofCalls (visible : Bool) (calls : List Call) : Journal := recordAll { visible } calls

end Journal

end TabHost
