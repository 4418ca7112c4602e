import TabHost.Outcome

/-!
# The activation gate

While a tab is blocked, as by the negotiation over a new window, changes of its
activation and its rendering are put off. The `Gate` counts the blockers and keeps of
each kind of change the last one; when the last blocker is gone it gives both back.
-/

namespace TabHost

/-- A render state that was put off. -/
structure PendingRender where
  enabled : Bool
  epoch : Epoch
  deriving DecidableEq

/-- What was put off, when it is due. -/
structure GateReplay where
  active : Option Bool := none
  render : Option PendingRender := none
  deriving DecidableEq

/-- Blockers, and what they hold up. -/
structure Gate where
  blockers : UInt32 := 0
  active : Option Bool := none
  render : Option PendingRender := none
  deriving DecidableEq

namespace Gate

def isBlocked (g : Gate) : Bool := 0 < g.blockers

/-- One more blocker. Past `2^32 - 1` of them a checked build stops and an unchecked one
starts again from zero. -/
def addBlocker (build : Build) (g : Gate) : Outcome ε Gate :=
  if build = .checked ∧ g.blockers.toNat + 1 = UInt32.size then .fail .counterOverflow g
  else .ok { g with blockers := g.blockers + 1 }

/-- One blocker less: none if there is none; else the gate, and what is due if it was the
last one. -/
def removeBlocker? (g : Gate) : Option (Gate × Option GateReplay) :=
  if g.blockers = 0 then none
  else if g.blockers = 1 then some ({}, some { active := g.active, render := g.render })
  else some ({ g with blockers := g.blockers - 1 }, none)

/-- Puts a change of the activation off, if there is a blocker. -/
def captureActive? (g : Gate) (active : Bool) : Option Gate :=
  if g.isBlocked then some { g with active := some active } else none

/-- Puts a change of the rendering off, if there is a blocker. -/
def captureRender? (g : Gate) (render : PendingRender) : Option Gate :=
  if g.isBlocked then some { g with render := some render } else none

theorem isBlocked_eq_false_iff {g : Gate} : g.isBlocked = false ↔ g.blockers = 0 := by
  rw [isBlocked, decide_eq_false_iff_not, UInt32.lt_iff_toNat_lt, ← UInt32.toNat_inj]
  exact Nat.not_lt.trans Nat.le_zero

/-- One more blocker is counted, as long as there are fewer than `2^32`. -/
theorem addBlocker_of_room {g : Gate} (build : Build)
    (room : g.blockers.toNat + 1 < UInt32.size) :
    (g.addBlocker build : Outcome ε Gate) = .ok { g with blockers := g.blockers + 1 } ∧
      (g.blockers + 1).toNat = g.blockers.toNat + 1 := by
  refine ⟨if_neg fun full => Nat.ne_of_lt room full.2, ?_⟩
  rw [UInt32.toNat_add]
  exact Nat.mod_eq_of_lt room

theorem removeBlocker?_eq_none_iff {g : Gate} : g.removeBlocker? = none ↔ g.blockers = 0 := by
  unfold removeBlocker?
  split
  · simp [*]
  · split <;> simp [*]

end Gate

end TabHost
