import TabHost.Content.Basic

/-!
# Inert content

The least that content can be: it knows whether it is visible, lets every event pass
without taking time over it, and pushes nothing.
-/

namespace TabHost

/-- Content that does no more than it must. -/
structure Inert where
  visible : Bool := false
  deriving DecidableEq

namespace Inert

/-- Nothing comes of an event. -/
def ignore (c : Inert) : Reaction Inert := { content := c, cost := .zero, pushed := [] }

/-- Visibility is all that notices change. -/
def notify (c : Inert) : Notice → Inert
  | .makeVisible => { visible := true }
  | .makeHidden => { visible := false }
  | _ => c

end Inert

instance : Content Inert where
  attach c := c
  pointer _ c := c.ignore
  wheel _ c := c.ignore
  key _ c := c.ignore
  keyStatus _ _ := .consumeDoDefault
  notify n c := c.notify n
  isVisible c := c.visible
  isSafeToRunScript _ := true
  backlog _ := 0
  backlog_pointer _ _ := Nat.le_refl _
  backlog_wheel _ _ := Nat.le_refl _
  backlog_key _ _ := Nat.le_refl _

end TabHost
