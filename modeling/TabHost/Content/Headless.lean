import TabHost.Content.Basic

/-!
# Headless content

Content without a document behind it, as replays use it. Every event takes it the same
time, every key gets the same answer, and with the first pointer event that it handles
it pushes a list of further events, as a nested event loop would.
-/

namespace TabHost

/-- Content without a document. -/
structure Headless where
  visible : Bool := false
  safe : Bool := true
  status : EventStatus := .ignore
  cost : Duration := .zero
  /-- Whether it has a way to push events. -/
  attached : Bool := false
  /-- The events that it will push. -/
  reentrant : List PointerEvent := []

namespace Headless

/-- A pointer event takes its time, and then all waiting events are pushed. -/
def pointer (h : Headless) : Reaction Headless :=
  if h.attached then
    { content := { h with reentrant := [] }, cost := h.cost, pushed := h.reentrant }
  else { content := h, cost := h.cost, pushed := [] }

/-- Any other event just takes its time. -/
def endure (h : Headless) : Reaction Headless :=
  { content := h, cost := h.cost, pushed := [] }

/-- Visibility follows the notices; destroyed content pushes no more. -/
def notify (h : Headless) : Notice → Headless
  | .makeVisible => { h with visible := true }
  | .makeHidden => { h with visible := false }
  | .destroy => { h with attached := false }
  | _ => h

end Headless

instance : Content Headless where
  attach h := { h with attached := true }
  pointer _ h := h.pointer
  wheel _ h := h.endure
  key _ h := h.endure
  keyStatus _ h := h.status
  notify n h := h.notify n
  isVisible h := h.visible
  isSafeToRunScript h := h.safe
  backlog h := h.reentrant.length
  backlog_pointer _ h := by
    unfold Headless.pointer
    split <;> simp
  backlog_wheel _ h := by simp [Headless.endure]
  backlog_key _ h := by simp [Headless.endure]

end TabHost
