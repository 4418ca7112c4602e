import TabHost.Host.Basic

/-!
# Running a host

A host takes the envelopes out of its inbox, does the tasks of its run queue one after
the other, and reaps tabs that are deleted. When nothing is left to do, the tabs dispatch
the pointer input that they kept back; this makes no new work, so the host is idle then.

A destroy makes work of its own, two passes of a delete. `RunQueue.work` counts them
beforehand, so every task lowers it and the tasks come to an end.
-/

namespace TabHost

/-! ## How much work there is -/

/-- How many tasks can come of a task, itself included. -/
def Task.work : Task → Nat
  | .deliver e =>
    match e.request with
    | .destroy => 3
    | _ => 1
  | .delete d => if d.ready then 1 else 2

/-- How many tasks can come of some tasks. -/
def Task.totalWork (ts : List Task) : Nat := ts.foldr (fun t n => t.work + n) 0

/-- How many tasks can come of the tasks in a queue. -/
def RunQueue.work (q : RunQueue) : Nat := Task.totalWork q.input + Task.totalWork q.normal

namespace Host

variable {σ : Type} [Content σ]

/-- Queues what is in the inbox. -/
def pullInbox (h : Host σ) : Host σ :=
  { h with
    inbox := []
    shared := { h.shared with queue := h.inbox.foldl (fun q e => q.deliver e) h.shared.queue } }

/-- How many tasks can come of all that waits. -/
def work (h : Host σ) : Nat := h.pullInbox.shared.queue.work

/-! ## One task -/

/-- What becomes of an envelope for a tab that is not there. Lost links do not matter any
more, and neither does what was sent to a tab before it was deleted. -/
def dropUnrouted (build : Build) (e : Envelope) (h : Host σ) : Outcome Effect (Host σ) :=
  match e.request, decide (e.tab ∈ h.retired) with
  | .channelClosed, _ => .ok h
  | .destroy, true => .violation build e.tab .destroyAfterDelete h
  | _, true => .ok h
  | r, false => .violation build e.tab (.unexpected r.name) h

/-- Whether a tab is there and is deleted. -/
def isReapable (tab : TabId) (h : Host σ) : Bool :=
  (h.tabs.get? tab).any fun t => t.state = .deleted

/-- Drops a tab that is deleted. -/
def reap (tab : TabId) (h : Host σ) : Outcome Effect (Host σ) :=
  if h.isReapable tab then
    (h.dropTab tab).map fun h => { h with retired := tab :: h.retired }
  else .ok h

/-- Does a task. -/
def runTask (build : Build) (t : Task) (h : Host σ) : Outcome Effect (Host σ) :=
  match t with
  | .deliver e =>
    if h.tabs.contains e.tab then
      (h.onTab e.tab (Seat.handle build e)).andThen (reap e.tab)
    else h.dropUnrouted build e
  | .delete d => (h.onTab d.tab (Seat.runDelete d)).andThen (reap d.tab)

/-- The task that is due once the inbox is queued, and the host without it. -/
def takeTask? (h : Host σ) : Option (Task × Host σ) :=
  (h.pullInbox.shared.queue.pop?).map fun r =>
    (r.1, { h.pullInbox with shared := { h.shared with queue := r.2 } })

/-- Does the task that is due, if there is one. -/
def runOne (build : Build) (h : Host σ) : Outcome Effect (Host σ) :=
  match h.takeTask? with
  | none => .ok h.pullInbox
  | some (t, h) => h.runTask build t

/-! ## All tasks -/

/-- Does at most so many tasks; counts them. -/
def runTasks (build : Build) : Nat → Nat × Host σ → Outcome Effect (Nat × Host σ)
  | 0, s => .ok s
  | n + 1, (ran, h) =>
    match h.takeTask? with
    | none => .ok (ran, h.pullInbox)
    | some (t, h) =>
      ((h.runTask build t).map fun h => (ran + 1, h)).andThen (runTasks build n)

/-- The tabs of a list dispatch the pointer input that they kept back. -/
def flushTabs : List TabId → Host σ → Outcome Effect (Host σ)
  | [], h => .ok h
  | t :: rest, h => (h.onTab t Seat.flushInput).andThen (flushTabs rest)

/-- All tabs dispatch the pointer input that they kept back. -/
def flushAll (h : Host σ) : Outcome Effect (Host σ) := h.flushTabs h.tabs.keys

/-- Works until there is nothing left to do; with the number of tasks done. -/
def runUntilIdle (build : Build) (h : Host σ) : Outcome Effect (Nat × Host σ) :=
  (runTasks build (h.work + 1) (0, h)).andThen fun s => s.2.flushAll.map fun h => (s.1, h)

/-! ## Running until the last tab is gone -/

/-- Whether there is no tab left. -/
def isDone (h : Host σ) : Bool := h.tabs.size = 0

/-- Starts to run: works until there is nothing left to do. -/
def start (build : Build) (h : Host σ) : Outcome Effect (Host σ) :=
  (h.runUntilIdle build).map Prod.snd

/-- Goes on running, if there is an envelope in the inbox. -/
def resume (build : Build) (h : Host σ) : Outcome Effect (Host σ) :=
  match h.inbox with
  | [] => .ok h
  | e :: rest =>
    start build
      { h with
        inbox := rest
        shared := { h.shared with queue := h.shared.queue.deliver e } }

/-- What a running host says when it is asked to go on. -/
inductive Poll where
  | pending
  | ready
  deriving DecidableEq

/-- What a host says after it did what there was to do. -/
def poll (h : Host σ) : Poll := if h.isDone then .ready else .pending

/-- Goes on running with each of some batches of envelopes in turn, until it is ready;
with what it said each time. -/
def feed (build : Build) : List (List Envelope) → Outcome Effect (List Poll × Host σ) →
    Outcome Effect (List Poll × Host σ)
  | [], o => o
  | batch :: rest, o =>
    if o.state.2.isDone then o
    else
      feed build rest <| o.andThen fun s =>
        (resume build (batch.foldl (fun h e => h.post e) s.2)).map fun h => (s.1 ++ [h.poll], h)

/-- Runs with some batches of envelopes, each posted while the host is waiting. -/
def drive (build : Build) (batches : List (List Envelope)) (h : Host σ) :
    Outcome Effect (List Poll × Host σ) :=
  feed build batches ((h.start build).map fun h => ([h.poll], h))

end Host

end TabHost
