import TabHost.Proofs.Host.Waiting

/-!
# First come, first done

At each of the two priorities, tasks are done in the order in which they came. What waits in a
queue is done before all that comes later (`Host.tasks_runs`), and the envelopes that a host
was posted are those that it delivered and those that still wait, in this order
(`Host.envelopes_runs`).
-/

set_option linter.unusedSectionVars false

namespace TabHost

/-- The envelope that a task delivers. -/
def Task.envelope? : Task → Option Envelope
  | .deliver e => some e
  | .delete _ => none

/-- The envelopes of some tasks. -/
def envelopesOf (ts : List Task) : List Envelope := ts.filterMap Task.envelope?

theorem envelopesOf_append (ts us : List Task) :
    envelopesOf (ts ++ us) = envelopesOf ts ++ envelopesOf us :=
  List.filterMap_append

theorem envelopesOf_deliver (es : List Envelope) : envelopesOf (es.map .deliver) = es := by
  simp [envelopesOf, List.filterMap_map, Function.comp_def, Task.envelope?]

namespace RunQueue

variable {q r : RunQueue} {p : Priority} {t : Task}

/-- The task that is due, if it waits at a priority. -/
def next (q : RunQueue) : Priority → List Task
  | .input => q.input.take 1
  | .normal => if q.input.isEmpty then q.normal.take 1 else []

theorem tasks_of_pop? (h : q.pop? = some (t, r)) (p : Priority) :
    q.tasks p = q.next p ++ r.tasks p := by
  unfold pop? at h
  split at h
  · next hi =>
    cases h
    cases p <;> simp [tasks, next, hi]
  · next hi hn =>
    cases h
    cases p <;> simp [tasks, next, hi, hn]
  · cases h

theorem next_of_pop?_eq_none (h : q.pop? = none) (p : Priority) : q.next p = [] := by
  have idle := pop?_eq_none_iff.mp h
  simp only [isIdle, Bool.and_eq_true, List.isEmpty_iff] at idle
  cases p <;> simp [next, idle]

/-- The task that is due waits at one of the two priorities. -/
theorem next_of_pop? (h : q.pop? = some (t, r)) : q.next .input ++ q.next .normal = [t] := by
  unfold pop? at h
  split at h
  · next hi =>
    cases h
    simp [next, hi]
  · next hi hn =>
    cases h
    simp [next, hi, hn]
  · cases h

theorem tasks_push (p' : Priority) (t : Task) (q : RunQueue) :
    (q.push p' t).tasks p = q.tasks p ++ if p' = p then [t] else [] := by
  cases p <;> cases p' <;> simp [push, tasks]

theorem tasks_deliver_all (es : List Envelope) (q : RunQueue) :
    (es.foldl (fun q e => q.deliver e) q).tasks p =
      q.tasks p ++ (es.filter fun e => e.priority = p).map .deliver := by
  induction es generalizing q with
  | nil => simp
  | cons e es ih =>
    rw [List.foldl_cons, ih, deliver, tasks_push, List.filter_cons]
    by_cases hp : e.priority = p <;> simp [hp]

/-- A pass that is scheduled delivers no envelope. -/
theorem envelopesOf_schedule (d : DeletePass) (q : RunQueue) :
    envelopesOf ((q.schedule d).tasks p) = envelopesOf (q.tasks p) := by
  rw [schedule, tasks_push, envelopesOf_append]
  split <;> simp [envelopesOf, Task.envelope?]

end RunQueue

variable {σ : Type} [Content σ]

/-- The envelope that is posted. -/
def Event.posted? : Event σ → Option Envelope
  | .post e => some e
  | _ => none

/-- The envelopes of a priority that are posted in some events. -/
def posted (p : Priority) (evs : List (Event σ)) : List Envelope :=
  (evs.filterMap Event.posted?).filter fun e => e.priority = p

theorem posted_append (p : Priority) (evs evs' : List (Event σ)) :
    posted p (evs ++ evs') = posted p evs ++ posted p evs' := by
  simp [posted]

namespace Host

variable {h : Host σ} {ev : Event σ} {p : Priority}

/-! ## One event -/

/-- The task that an event does, if it waits at a priority. -/
def doneAt (h : Host σ) (p : Priority) : Event σ → List Task
  | .runOne => h.pullInbox.shared.queue.next p
  | _ => []

/-- The envelopes that wait at a priority, in the queue and in the inbox. -/
def envelopesAt (h : Host σ) (p : Priority) : List Envelope :=
  envelopesOf (h.shared.queue.tasks p) ++ h.inbox.filter fun e => e.priority = p

/-- The task that is due is all that is done. -/
theorem doneAt_runOne {h' : Host σ} {t : Task} (ht : h.takeTask? = some (t, h')) :
    h.doneAt .input .runOne ++ h.doneAt .normal .runOne = [t] := by
  obtain ⟨⟨task, r⟩, hpop, heq⟩ := Option.map_eq_some_iff.mp ht
  obtain rfl : task = t := congrArg Prod.fst heq
  exact RunQueue.next_of_pop? hpop

/-- What an event does was due. -/
theorem taken_of_mem_doneAt {t : Task} (hm : t ∈ h.doneAt p ev) :
    ev = .runOne ∧ ∃ h', h.takeTask? = some (t, h') := by
  cases ev with
  | runOne =>
    refine ⟨rfl, ?_⟩
    cases ht : h.takeTask? with
    | none =>
      have idle : h.pullInbox.shared.queue.pop? = none := Option.map_eq_none_iff.mp ht
      rw [doneAt, RunQueue.next_of_pop?_eq_none idle] at hm
      cases hm
    | some r =>
      have due : t ∈ h.doneAt .input .runOne ++ h.doneAt .normal .runOne := by
        cases p with
        | input => exact List.mem_append_left _ hm
        | normal => exact List.mem_append_right _ hm
      rw [doneAt_runOne ht] at due
      exact ⟨r.2, by rw [List.mem_singleton.mp due]⟩
  | _ => cases hm

theorem tasks_pullInbox (h : Host σ) (p : Priority) : h.pullInbox.shared.queue.tasks p =
    h.shared.queue.tasks p ++ (h.inbox.filter fun e => e.priority = p).map .deliver :=
  RunQueue.tasks_deliver_all h.inbox h.shared.queue

theorem envelopesAt_new (settings : Settings) (clock : Duration) (surfaces : Surfaces)
    (p : Priority) : (new settings clock surfaces : Host σ).envelopesAt p = [] := by
  cases p <;> rfl

theorem envelopesAt_eq (h : Host σ) (p : Priority) :
    h.envelopesAt p = envelopesOf (h.pullInbox.shared.queue.tasks p) := by
  rw [tasks_pullInbox, envelopesOf_append, envelopesOf_deliver, envelopesAt]

/-- When the inbox is queued, the task that is due waits before the others. -/
theorem tasks_pullInbox_eq (h : Host σ) (p : Priority) : h.pullInbox.shared.queue.tasks p =
    h.doneAt p .runOne ++ (h.waitingBeside .runOne).tasks p := by
  cases hpop : h.pullInbox.shared.queue.pop? with
  | none =>
    have beside : h.waitingBeside .runOne = h.pullInbox.shared.queue := by
      rw [waitingBeside, takeTask?, hpop]
      rfl
    rw [beside, doneAt, RunQueue.next_of_pop?_eq_none hpop, List.nil_append]
  | some r =>
    have beside : h.waitingBeside .runOne = r.2 := by
      rw [waitingBeside, takeTask?, hpop]
      rfl
    rw [beside]
    exact RunQueue.tasks_of_pop? hpop p

/-- What waits in the queue is done, or stays before all that comes. -/
theorem tasks_step (build : Build) (hs : h.Sound) (ne : ev ≠ .shutdown) (p : Priority) :
    h.shared.queue.tasks p <+:
      h.doneAt p ev ++ (h.step build ev).state.shared.queue.tasks p := by
  have stays := growsTo_step build hs ne p
  cases ev with
  | runOne =>
    have first : h.shared.queue.tasks p <+: h.pullInbox.shared.queue.tasks p := by
      rw [tasks_pullInbox]
      exact List.prefix_append ..
    rw [tasks_pullInbox_eq] at first
    exact first.trans ((List.prefix_append_right_inj _).mpr stays)
  | _ => exact stays

/-- An event queues no envelope. -/
theorem envelopesOf_step (build : Build) (hs : h.Sound) (ne : ev ≠ .shutdown) (p : Priority) :
    envelopesOf ((h.step build ev).state.shared.queue.tasks p) =
      envelopesOf ((h.waitingBeside ev).tasks p) := by
  cases stepCase build hs ev with
  | quiet _ deed => rw [queue_step_of_quiet build ne deed]
  | created tab content link _ _ event _ state =>
    rw [state]
    rcases event with ⟨c, rfl⟩ | ⟨c, heard, rfl⟩ <;> rfl
  | acted d t deed htab _ acts =>
    rw [acts.shared, ← queue_around deed]
    cases Seat.progresses_act build d.act (s := { tab := t, shared := d.around })
      (hs _ _ htab).1 with
    | asked _ _ _ queue | bounced _ _ _ _ queue =>
      rw [queue]
      exact RunQueue.envelopesOf_schedule ..
    | stays _ _ _ queue | lost _ _ _ queue | finished _ _ _ _ queue => rw [queue]
  | shut event => exact absurd event ne

theorem inbox_onTab (tab : TabId) (op : Operation σ) (h : Host σ) :
    (h.onTab tab op).state.inbox = h.inbox := by
  unfold onTab
  split <;> rfl

theorem inbox_onHosted (build : Build) (tab : TabId) (v : Violation) (op : Operation σ)
    (h : Host σ) : (h.onHosted build tab v op).state.inbox = h.inbox := by
  unfold onHosted
  split
  · exact inbox_onTab tab op h
  · rw [Outcome.state_violation]

theorem inbox_reap (tab : TabId) (h : Host σ) : (h.reap tab).state.inbox = h.inbox := by
  unfold reap
  split
  · exact inbox_onTab tab Seat.destroyWindow h
  · rfl

theorem inbox_runTask (build : Build) (task : Task) (h : Host σ) :
    (h.runTask build task).state.inbox = h.inbox := by
  cases ht : h.tabs.get? task.tab with
  | none => rw [(runTask_of_none build task ht).1]
  | some t =>
    rw [runTask_of_some build task ht]
    have first := inbox_onTab task.tab (Seat.act build task.act) h
    cases hf : (h.onTab task.tab (Seat.act build task.act)).fault with
    | some f => rw [Outcome.andThen_of_fault hf, first]
    | none => rw [Outcome.state_andThen hf, inbox_reap, first]

theorem inbox_createIfNew (tab : TabId) (content : σ) (link : ParentLink) (h : Host σ) :
    (h.createIfNew tab content link).state.inbox = h.inbox := by
  unfold createIfNew create?
  cases h.tabs.contains tab <;> rfl

/-- The envelopes that wait to be queued while an event happens. -/
def inboxBeside (h : Host σ) : Event σ → Inbox
  | .runOne => []
  | _ => h.inbox

/-- The inbox is emptied before a task is done, and takes what is posted. -/
theorem inbox_step (build : Build) (ne : ev ≠ .shutdown) (h : Host σ) :
    (h.step build ev).state.inbox = h.inboxBeside ev ++ ev.posted?.toList := by
  have same : ∀ {l : Inbox}, l = h.inbox → l = h.inbox ++ [] := fun heq =>
    heq.trans (List.append_nil _).symm
  cases ev with
  | create tab content => exact same (inbox_createIfNew tab content _ h)
  | createOver tab content heard => exact same (inbox_createIfNew tab content _ h)
  | post e => rfl
  | runOne =>
    rw [step, runOne]
    cases hr : h.takeTask? with
    | none => rfl
    | some r =>
      have taken : r.2.inbox = [] := by
        obtain ⟨r', -, heq⟩ := Option.map_eq_some_iff.mp hr
        cases heq
        rfl
      exact (inbox_runTask build r.1 r.2).trans taken
  | flush tab => exact same (inbox_onTab tab _ h)
  | addBlocker tab => exact same (inbox_onHosted build tab _ _ h)
  | removeBlocker tab => exact same (inbox_onHosted build tab _ _ h)
  | destroy tab => exact same (inbox_onHosted build tab _ _ h)
  | push | setClock | surfaces => exact same rfl
  | hangUp tab => exact same (inbox_onTab tab _ h)
  | shutdown => exact absurd rfl ne

/-- The envelopes that waited, and the one that is posted, are delivered or go on waiting. -/
theorem envelopes_step (build : Build) (hs : h.Sound) (ne : ev ≠ .shutdown) (p : Priority) :
    envelopesOf (h.doneAt p ev) ++ (h.step build ev).state.envelopesAt p =
      h.envelopesAt p ++ posted p [ev] := by
  have new : posted p [ev] = ev.posted?.toList.filter fun e => e.priority = p := by
    unfold posted
    cases hp : ev.posted? <;> simp [hp]
  have before : h.envelopesAt p = envelopesOf (h.doneAt p ev) ++
      (envelopesOf ((h.waitingBeside ev).tasks p) ++
        (h.inboxBeside ev).filter fun e => e.priority = p) := by
    cases ev with
    | runOne =>
      rw [envelopesAt_eq, tasks_pullInbox_eq, envelopesOf_append]
      exact congrArg _ (List.append_nil _).symm
    | _ => rfl
  rw [envelopesAt, envelopesOf_step build hs ne, inbox_step build ne, List.filter_append, ← new,
    before]
  simp only [List.append_assoc]

/-! ## Runs -/

/-- The tasks of a priority that are done in some events. -/
def doneIn (build : Build) (p : Priority) : List (Event σ) → Host σ → List Task
  | [], _ => []
  | ev :: rest, h => h.doneAt p ev ++ doneIn build p rest (h.step build ev).state

/-- What waits in the queue is done in some events, or stays before all that comes. -/
theorem tasks_runs (build : Build) {evs : List (Event σ)} {h : Host σ} (hs : h.Sound)
    (running : .shutdown ∉ evs) (fault : (h.runs build evs).fault = none) (p : Priority) :
    h.shared.queue.tasks p <+:
      h.doneIn build p evs ++ (h.runs build evs).state.shared.queue.tasks p := by
  induction evs generalizing h with
  | nil => exact List.prefix_rfl
  | cons ev rest ih =>
    have ne : ev ≠ .shutdown := fun h => running (h ▸ List.mem_cons_self)
    obtain ⟨first, later⟩ := Outcome.fault_andThen_eq_none_iff.mp fault
    have rest' := ih (sound_step build hs ev) (fun h => running (List.mem_cons_of_mem _ h)) later
    rw [doneIn, runs, Outcome.state_andThen first, List.append_assoc]
    exact (tasks_step build hs ne p).trans ((List.prefix_append_right_inj _).mpr rest')

/-- The envelopes that a host is posted are delivered in their order, and what is left waits. -/
theorem envelopes_runs (build : Build) {evs : List (Event σ)} {h : Host σ} (hs : h.Sound)
    (running : .shutdown ∉ evs) (fault : (h.runs build evs).fault = none) (p : Priority) :
    envelopesOf (h.doneIn build p evs) ++ (h.runs build evs).state.envelopesAt p =
      h.envelopesAt p ++ posted p evs := by
  induction evs generalizing h with
  | nil => exact (List.append_nil _).symm
  | cons ev rest ih =>
    have ne : ev ≠ .shutdown := fun h => running (h ▸ List.mem_cons_self)
    obtain ⟨first, later⟩ := Outcome.fault_andThen_eq_none_iff.mp fault
    have rest' := ih (sound_step build hs ev) (fun h => running (List.mem_cons_of_mem _ h)) later
    rw [doneIn, runs, Outcome.state_andThen first, envelopesOf_append, List.append_assoc, rest',
      ← List.append_assoc, envelopes_step build hs ne, List.append_assoc, ← posted_append]
    rfl

end Host

end TabHost
