import TabHost.Protocol.Message

/-!
# The run queue

The tabs of a host share one thread of work. A `Task` is the delivery of an envelope or a
pass of a delayed delete. Tasks wait at two priorities; input goes before all that is
normal, and tasks of one priority are done in the order in which they came.

A delayed delete makes two passes: the first at normal priority, and the second, ready to
delete, at input priority. So all that waited at either priority before the delete was
asked for is done before it.
-/

namespace TabHost

/-- A pass of the delayed delete of a tab. -/
structure DeletePass where
  tab : TabId
  /-- Whether it is the second pass. -/
  ready : Bool := false
  deriving DecidableEq

namespace DeletePass

def priority (d : DeletePass) : Priority := if d.ready then .input else .normal

/-- The pass after the first one. -/
def second (d : DeletePass) : DeletePass := { d with ready := true }

end DeletePass

/-- A piece of work. -/
inductive Task where
  | deliver (e : Envelope)
  | delete (d : DeletePass)

/-- The work that waits, oldest first. -/
structure RunQueue where
  input : List Task := []
  normal : List Task := []

namespace RunQueue

/-- The tasks of a priority. -/
def tasks (q : RunQueue) : Priority → List Task
  | .input => q.input
  | .normal => q.normal

/-- Queues a task at a priority. -/
def push (p : Priority) (t : Task) (q : RunQueue) : RunQueue :=
  match p with
  | .input => { q with input := q.input ++ [t] }
  | .normal => { q with normal := q.normal ++ [t] }

/-- Queues an envelope at its priority. -/
def deliver (e : Envelope) (q : RunQueue) : RunQueue := q.push e.priority (.deliver e)

/-- Queues a pass of a delete at its priority. -/
def schedule (d : DeletePass) (q : RunQueue) : RunQueue := q.push d.priority (.delete d)

/-- The task that is due, and the queue without it. -/
def pop? (q : RunQueue) : Option (Task × RunQueue) :=
  match q.input, q.normal with
  | t :: rest, _ => some (t, { q with input := rest })
  | [], t :: rest => some (t, { q with normal := rest })
  | [], [] => none

/-- The envelope of a task, if it came over a channel. -/
def envelopeOn? (c : Channel) : Task → Option Envelope
  | .deliver e => if e.channel = c then some e else none
  | .delete _ => none

/-- Whether the first envelope of a channel and a priority is a wheel event for a tab. -/
def nextIsWheel (q : RunQueue) (tab : TabId) (c : Channel) (p : Priority) : Bool :=
  match (q.tasks p).findSome? (envelopeOn? c) with
  | none => false
  | some e => e.tab = tab && e.request.isWheel

/-- The number of tasks. -/
def size (q : RunQueue) : Nat := q.input.length + q.normal.length

def isIdle (q : RunQueue) : Bool := q.input.isEmpty && q.normal.isEmpty

theorem size_push (p : Priority) (t : Task) (q : RunQueue) : (q.push p t).size = q.size + 1 := by
  cases p <;> simp [push, size] <;> omega

theorem size_pop? {q r : RunQueue} {t : Task} (h : q.pop? = some (t, r)) :
    q.size = r.size + 1 := by
  unfold pop? at h
  split at h <;> cases h <;> simp_all [size]
  omega

theorem pop?_eq_none_iff {q : RunQueue} : q.pop? = none ↔ q.isIdle = true := by
  unfold pop? isIdle
  split <;> simp_all

end RunQueue

end TabHost
