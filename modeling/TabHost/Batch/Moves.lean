import TabHost.Content.Stage

/-!
# Batches of pointer moves

Content gets to see of the moves of a pointer only the newest, as long as nothing else
happens: a move is kept back as the `MoveRecord` of its pointer, and the next move of the
same pointer takes its place if the policy allows. Otherwise the record goes to the queue
of events that are ready for dispatch, and the newer move starts a record of its own.

Records are kept in the order in which they were started, which is the order in which
`flush` queues them.
-/

namespace TabHost

/-- Whether a move may take the place of a pending one. -/
abbrev MergePolicy := PointerMove → PointerMove → Bool

/-- The newest move of a pointer since its last flush. -/
structure MoveRecord where
  event : PointerMove
  /-- How many moves the record stands for. -/
  merged : Nat := 1

namespace MoveRecord

/-- The record with a newer move in the place of its own. -/
def replace (r : MoveRecord) (e : PointerMove) : MoveRecord :=
  { event := e, merged := r.merged + 1 }

/-- The event that a record is dispatched as. -/
def toEvent (r : MoveRecord) : PointerEvent := .move r.event

end MoveRecord

/-- The pointer input of a tab that content has not seen. -/
structure MoveBatch where
  /-- One record per pointer, in the order in which they were started. -/
  pending : List MoveRecord := []
  /-- Events that are ready for dispatch. -/
  queue : List PointerEvent := []

namespace MoveBatch

/-- The record of a pointer. -/
def record? (b : MoveBatch) (p : PointerId) : Option MoveRecord :=
  b.pending.find? fun r => r.event.pointer = p

/-- Takes in a move. If it displaces an older record, that one is queued. -/
def add (policy : MergePolicy) (e : PointerMove) (b : MoveBatch) : MoveBatch :=
  match b.record? e.pointer with
  | none => { b with pending := b.pending ++ [{ event := e }] }
  | some r =>
    if policy r.event e then
      { b with
        pending := b.pending.map fun r => if r.event.pointer = e.pointer then r.replace e else r }
    else
      { pending := b.pending.filter (fun r => r.event.pointer ≠ e.pointer) ++ [{ event := e }]
        queue := b.queue ++ [r.toEvent] }

/-- Whether a move would displace an older record, so that a dispatch is due. -/
def displaces (policy : MergePolicy) (e : PointerMove) (b : MoveBatch) : Bool :=
  match b.record? e.pointer with
  | none => false
  | some r => !policy r.event e

/-- Queues all records, the one started first in front. -/
def flush (b : MoveBatch) : MoveBatch :=
  { pending := [], queue := b.queue ++ b.pending.map MoveRecord.toEvent }

/-- Queues an event. -/
def enqueue (e : PointerEvent) (b : MoveBatch) : MoveBatch :=
  { b with queue := b.queue ++ [e] }

/-- Whether nothing waits, neither in a record nor in the queue. -/
def isIdle (b : MoveBatch) : Bool := b.pending.isEmpty && b.queue.isEmpty

end MoveBatch

end TabHost
