import TabHost.Protocol.Message

/-!
# Content

`Content σ` is the document side of a tab: all that runs content code or paints. A tab
dispatches events to it and notifies it of changes; a `Call` records one of either kind.

While content handles an event it may push further pointer events into the tab's queue.
It has only finitely many of them: `backlog` bounds how many it can still push, and each
dispatch lowers the bound by what it pushed. This is what lets a queue be emptied even
though it grows while it is emptied.
-/

namespace TabHost

/-- A change that content is told of. -/
inductive Notice where
  | active (a : Bool)
  | epoch (e : Epoch)
  | makeVisible
  | makeHidden
  | clearCachedResources
  | paintNow
  | schedulePaint
  | destroy
  deriving DecidableEq

/-- Something that content was called for. -/
inductive Call where
  | pointer (e : PointerEvent)
  | wheel (e : WheelEvent)
  | key (e : KeyEvent) (status : EventStatus)
  | notice (n : Notice)

/-- What content makes of an event. -/
structure Reaction (σ : Type) where
  content : σ
  /-- How long content took. -/
  cost : Duration
  /-- What content pushed into the queue of pointer events meanwhile. -/
  pushed : List PointerEvent

/-- The document side of a tab, with states of type `σ`. -/
class Content (σ : Type) where
  /-- Gives content its way back into the queue of pointer events. -/
  attach : σ → σ
  pointer : PointerEvent → σ → Reaction σ
  wheel : WheelEvent → σ → Reaction σ
  key : KeyEvent → σ → Reaction σ
  /-- What content answers to a key event that it is about to handle. -/
  keyStatus : KeyEvent → σ → EventStatus
  notify : Notice → σ → σ
  isVisible : σ → Bool
  /-- Whether scripts may run right now, so that a paint need not be put off. -/
  isSafeToRunScript : σ → Bool
  /-- How many pointer events content can still push. -/
  backlog : σ → Nat
  backlog_pointer : ∀ e c, (pointer e c).pushed.length + backlog (pointer e c).content ≤ backlog c
  backlog_wheel : ∀ e c, (wheel e c).pushed.length + backlog (wheel e c).content ≤ backlog c
  backlog_key : ∀ e c, (key e c).pushed.length + backlog (key e c).content ≤ backlog c

end TabHost
