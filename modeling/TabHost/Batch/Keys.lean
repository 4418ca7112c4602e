import TabHost.Input.Event

/-!
# Repeated keys

A held key repeats, and content that is slow would fall ever further behind. A `KeyFilter`
drops a repeated keydown that was sent before content was done with the one before,
together with the keypresses that belong to it, as far as the parent lets them be dropped.
It also drops the keypresses of a keydown that content consumed.
-/

namespace TabHost

/-- What a tab remembers of its key events. -/
structure KeyFilter where
  /-- When content was done with the last repeated keydown or keypress. -/
  repeatEnd : Option Duration := none
  /-- A keydown was dropped, and the keypresses behind it are to be. -/
  skipsPress : Bool := false
  /-- Content consumed the last keydown, and with it the keypresses behind it. -/
  ignoresPress : Bool := false
  deriving DecidableEq

namespace KeyFilter

/-- The end of the last repeat, if it matters for an event. -/
def relevantEnd (f : KeyFilter) (e : KeyEvent) : Option Duration :=
  if e.skippable && e.isDownOrPress then f.repeatEnd else none

/-- Whether an event is dropped because content is behind. -/
def skips (f : KeyFilter) (e : KeyEvent) : Bool :=
  match f.relevantEnd e with
  | none => false
  | some finished =>
    (e.action = .down && e.timestamp < finished) || (f.skipsPress && e.action = .press)

/-- What is remembered after the decision on an event. -/
def afterSkip (f : KeyFilter) (e : KeyEvent) : KeyFilter :=
  match f.relevantEnd e with
  | none => { f with repeatEnd := none, skipsPress := false }
  | some _ =>
    if f.skips e then { f with skipsPress := f.skipsPress || e.action = .down }
    else if e.action = .down then { f with repeatEnd := none, skipsPress := false }
    else f

/-- Whether an event is a keypress of a keydown that content consumed. -/
def suppresses (f : KeyFilter) (e : KeyEvent) : Bool := e.action = .press && f.ignoresPress

/-- What is remembered after content handled an event, at an instant. -/
def record (f : KeyFilter) (e : KeyEvent) (status : EventStatus) (finished : Duration) :
    KeyFilter :=
  { f with
    repeatEnd := if e.isRepeat && e.isDownOrPress then some finished else f.repeatEnd
    ignoresPress :=
      if e.action = .down then decide (status = .consumeNoDefault) else f.ignoresPress }

end KeyFilter

end TabHost
