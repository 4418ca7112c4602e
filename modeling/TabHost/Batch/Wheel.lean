import TabHost.Content.Stage

/-!
# Batches of wheel events

While content is estimated to be busy with an earlier wheel event, and another one is
already waiting, wheel events are held back and added up. The estimate is the time that
content took for the last one, so that slow content gets fewer events.

A held-back event is dispatched before the next one that is not held back. The events at
the start and the end of a scroll operation are never held back.
-/

namespace TabHost

/-- Wheel events that were held back, added up. -/
structure WheelRecord where
  event : WheelEvent
  /-- How many events the record stands for. -/
  merged : Nat := 1

/-- The record with one more event. -/
def WheelRecord.add (r : WheelRecord) (e : WheelEvent) : WheelRecord :=
  { event := r.event.add e, merged := r.merged + 1 }

/-- What a tab remembers of its wheel events. -/
structure WheelBatch where
  pending : Option WheelRecord := none
  /-- The end of the last dispatch on the timeline of the parent; none after the last
  event of a burst, so that a lone event is never held back. -/
  lastProcessed : Option Duration := none
  /-- How long content took for the last dispatch. -/
  lastDuration : Duration := .zero

namespace WheelBatch

/-- Whether content is estimated to be busy at the time of an event; none where the end
of that time is beyond all durations. -/
def isBusy? (w : WheelBatch) (e : WheelEvent) : Option Bool :=
  match w.lastProcessed with
  | none => some false
  | some last => (last.add? w.lastDuration).map fun ending => decide (e.timestamp < ending)

/-- Whether an event may be added to what is held back. -/
def isCompatible (w : WheelBatch) (e : WheelEvent) : Bool :=
  match w.pending with
  | none => true
  | some r => r.event.compatibility = e.compatibility

/-- Whether an event counts as followed by another one: markers do not. -/
def isFollowed (e : WheelEvent) (nextIsWheel : Bool) : Bool :=
  nextIsWheel && e.phase = .delta

/-- Whether an event is held back, given that another wheel event waits behind it. -/
def holds? (w : WheelBatch) (e : WheelEvent) (nextIsWheel : Bool) : Option Bool :=
  if isFollowed e nextIsWheel then (w.isBusy? e).map fun busy => busy && w.isCompatible e
  else some false

/-- The batch with one more event held back. -/
def hold (w : WheelBatch) (e : WheelEvent) : WheelBatch :=
  { w with
    pending := some <|
      match w.pending with
      | none => { event := e }
      | some r => r.add e }

/-! ## Dispatching -/

variable {σ : Type} [Content σ]

/-- Dispatches what was held back. -/
def dispatchPending (s : WheelBatch × Stage σ) : Outcome Call (WheelBatch × Stage σ) :=
  match s.1.pending with
  | none => .ok s
  | some r => (s.2.wheel r.event).map fun stage => ({ s.1 with pending := none }, stage)

/-- Dispatches an event. -/
def dispatch (e : WheelEvent) (s : WheelBatch × Stage σ) : Outcome Call (WheelBatch × Stage σ) :=
  (s.2.wheel e).map fun stage => (s.1, stage)

/-- Notes how long content took since an instant for an event and what went before it. -/
def measure (before : Duration) (e : WheelEvent) (s : WheelBatch × Stage σ) :
    Outcome Call (WheelBatch × Stage σ) :=
  let took := s.2.clock.sub before
  match e.timestamp.add? took with
  | none => .fail .durationOverflow ({ s.1 with lastDuration := took }, s.2)
  | some last => .ok ({ s.1 with lastDuration := took, lastProcessed := some last }, s.2)

/-- Handles an event: holds it back, or dispatches it behind what was held back. -/
def handle (e : WheelEvent) (nextIsWheel : Bool) (s : WheelBatch × Stage σ) :
    Outcome Call (WheelBatch × Stage σ) :=
  match s.1.holds? e nextIsWheel with
  | none => .fail .durationOverflow s
  | some true => .ok (s.1.hold e, s.2)
  | some false =>
    if isFollowed e nextIsWheel then
      ((dispatchPending ({ s.1 with lastProcessed := some e.timestamp }, s.2)).andThen
        (dispatch e)).andThen (measure s.2.clock e)
    else
      (dispatchPending ({ s.1 with lastProcessed := none }, s.2)).andThen (dispatch e)

end WheelBatch

end TabHost
