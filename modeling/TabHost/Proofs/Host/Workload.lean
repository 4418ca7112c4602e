import TabHost.Proofs.Host.Quiescence

/-!
# How much work there is

A task is work by itself, and may make more: a destroy that is accepted makes the first pass
of a delete, and that one the second. Two accounts are kept of it.

* `Host.work` counts beforehand what may come of all that waits, so every task lowers it
  (`Host.work_runTask`).
* What waits, and the second passes that the tabs which are to be destroyed will have, is all
  the work there is until another destroy is accepted, which makes two tasks more
  (`Host.waiting_runTask`).

So the tasks come to an end, and the number of them is known (`Host.ran_runTasks`).
-/

set_option linter.unusedSectionVars false

namespace TabHost

/-! ## Counting in a table -/

namespace Table

variable {κ α : Type} [Ranked κ]

theorem countP_eraseIn (p : α → Bool) (k : κ) :
    ∀ {bs : List (κ × α)}, bs.Pairwise (fun a b => rank a.1 < rank b.1) →
      (bs.map Prod.snd).countP p =
        ((eraseIn k bs).map Prod.snd).countP p + ((find k bs).any p).toNat
  | [], _ => rfl
  | b :: rest, ascending => by
    obtain ⟨above, ascending⟩ := List.pairwise_cons.mp ascending
    have ih := countP_eraseIn p k ascending
    by_cases hk : rank b.1 = rank k
    · -- the key is not bound again behind
      have only : eraseIn k rest = rest :=
        List.filter_eq_self.mpr fun c hc => by simpa [hk] using Nat.ne_of_gt (hk ▸ above c hc)
      have here : eraseIn k (b :: rest) = rest := by
        rw [eraseIn, List.filter_cons_of_neg (by simpa using hk)]
        exact only
      rw [here, find, if_pos hk, List.map_cons, List.countP_cons, Option.any_some]
      cases p b.2 <;> rfl
    · have here : eraseIn k (b :: rest) = b :: eraseIn k rest :=
        List.filter_cons_of_pos (by simpa using hk)
      rw [here, find, if_neg hk, List.map_cons, List.map_cons, List.countP_cons, List.countP_cons,
        ih]
      omega

/-- A key counts once, if its value does. -/
theorem countP_values (t : Table κ α) (p : α → Bool) (k : κ) :
    t.values.countP p = (t.erase k).values.countP p + ((t.get? k).any p).toNat :=
  countP_eraseIn p k t.ascending

/-- Tables that agree but for one key. -/
theorem erase_eq_of_forall {t u : Table κ α} {k : κ} (h : ∀ j, j ≠ k → t.get? j = u.get? j) :
    t.erase k = u.erase k := by
  refine ext_get? fun j => ?_
  by_cases hj : j = k
  · rw [hj, get?_erase_self, get?_erase_self]
  · rw [get?_erase_of_ne hj, get?_erase_of_ne hj, h j hj]

end Table

/-! ## Tasks in a queue -/

theorem Task.work_pos (t : Task) : 0 < t.work := by
  unfold work
  split
  · split <;> decide
  · split <;> decide

theorem Task.totalWork_append (ts us : List Task) :
    totalWork (ts ++ us) = totalWork ts + totalWork us := by
  induction ts with
  | nil => exact (Nat.zero_add _).symm
  | cons t ts ih =>
    have ih : (ts ++ us).foldr (fun t n => t.work + n) 0 = totalWork ts + totalWork us := ih
    simp only [totalWork, List.cons_append, List.foldr_cons, ih]
    omega

namespace RunQueue

variable {q r : RunQueue} {t : Task}

theorem work_push (p : Priority) (t : Task) (q : RunQueue) :
    (q.push p t).work = q.work + t.work := by
  have one : Task.totalWork [t] = t.work := Nat.add_zero _
  cases p <;> simp only [push, work, Task.totalWork_append, one] <;> omega

theorem work_schedule (d : DeletePass) (q : RunQueue) :
    (q.schedule d).work = q.work + (Task.delete d).work :=
  work_push _ _ q

theorem size_schedule (d : DeletePass) (q : RunQueue) : (q.schedule d).size = q.size + 1 :=
  size_push _ _ q

/-- A task that is taken out was work. -/
theorem work_of_pop? (h : q.pop? = some (t, r)) : q.work = t.work + r.work := by
  unfold pop? at h
  split at h
  · next hi =>
    cases h
    simp only [work, hi, Task.totalWork, List.foldr_cons]
    omega
  · next hi hn =>
    cases h
    simp only [work, hi, hn, Task.totalWork, List.foldr_nil, List.foldr_cons]
    omega
  · cases h

theorem size_deliver_all (es : List Envelope) (q : RunQueue) :
    (es.foldl (fun q e => q.deliver e) q).size = q.size + es.length := by
  induction es generalizing q with
  | nil => rfl
  | cons e es ih =>
    rw [List.foldl_cons, ih, deliver, size_push, List.length_cons]
    omega

theorem size_of_isIdle (h : q.isIdle = true) : q.size = 0 := by
  simp only [isIdle, Bool.and_eq_true, List.isEmpty_iff] at h
  rw [size, h.1, h.2]
  rfl

theorem passes_of_isIdle (h : q.isIdle = true) (p : Priority) (d : DeletePass) :
    q.passes p d = 0 := by
  simp only [isIdle, Bool.and_eq_true, List.isEmpty_iff] at h
  cases p <;> simp [passes, tasks, h]

end RunQueue

variable {σ : Type} [Content σ]

/-! ## What an act makes of it -/

namespace Seat

variable {s : Seat σ} {a : Act} {o : Outcome Effect (Seat σ)}

/-- A task makes less work than it was itself. -/
theorem Progresses.work {task : Task} (h : Progresses s task.act o) :
    o.state.shared.queue.work + 1 ≤ s.shared.queue.work + task.work := by
  have pos := task.work_pos
  cases h with
  | stays _ _ _ queue | lost _ _ _ queue | finished _ _ _ _ queue =>
    rw [queue]
    omega
  | asked _ act _ queue =>
    have weight : task.work = 3 := by
      cases task with
      | delete => cases act
      | deliver e =>
        obtain ⟨tab, channel, priority, request⟩ := e
        cases request with
        | destroy => rfl
        | _ => cases act
    rw [queue, RunQueue.work_schedule, weight]
    exact Nat.le_refl _
  | @bounced d act ready _ _ queue =>
    have weight : task.work = 2 := by
      cases task with
      | deliver => cases act
      | delete d' =>
        cases act
        rw [Task.work, if_neg (by simp [ready])]
    rw [queue, RunQueue.work_schedule, weight]
    exact Nat.le_refl _

/-- A pass waits for a tab that is to be destroyed, and one more will; an act makes two passes
if it is a destroy that is accepted, and none else. -/
theorem Progresses.size (h : Progresses s a o) :
    o.state.shared.queue.size + (decide (o.state.tab.state = .destroying)).toNat =
      s.shared.queue.size + (decide (s.tab.state = .destroying)).toNat +
        2 * (s.tab.state.isLive && a.asksDestroy).toNat := by
  have alive : s.tab.state.isLive = true → decide (s.tab.state = .destroying) = false := by
    cases s.tab.state <;> simp [Lifecycle.isLive]
  cases h with
  | stays calm _ state queue =>
    have none : (s.tab.state.isLive && a.asksDestroy) = false := by
      cases live : s.tab.state.isLive with
      | false => rfl
      | true => exact (calm live).1
    rw [state, queue, none]
    rfl
  | asked live act state queue =>
    rw [state, queue, RunQueue.size_schedule, alive live, live, act]
    rfl
  | lost live act state queue =>
    have none : a.asksDestroy = false := by
      refine Bool.eq_false_iff.mpr fun asks => ?_
      rw [Act.losesLink_of_asksDestroy asks] at act
      cases act
    rw [state, queue, alive live, live, none]
    rfl
  | bounced _ _ before state queue =>
    rw [state, queue, RunQueue.size_schedule, before]
    rfl
  | finished _ _ before state queue =>
    rw [state, queue, before]
    rfl

end Seat

namespace Host

variable {h h' : Host σ} {tab : TabId} {ev : Event σ} {task : Task}

/-! ## The work of a host -/

/-- How many envelopes and passes wait, in the inbox and in the queue. -/
def waiting (h : Host σ) : Nat := h.inbox.length + h.shared.queue.size

/-- How many tabs are to be destroyed. -/
def destroying (h : Host σ) : Nat := h.tabs.values.countP fun t => t.state = .destroying

/-- Whether an event is a destroy that is accepted. -/
def acceptsDestroy (h : Host σ) (ev : Event σ) : Bool :=
  (h.deed? ev).any fun d => h.isLive d.tab && d.act.asksDestroy

theorem acceptsDestroy_iff : h.acceptsDestroy ev = true ↔ ∃ tab, h.AcceptsDestroy tab ev := by
  simp only [acceptsDestroy, Option.any_eq_true, Bool.and_eq_true]
  constructor
  · rintro ⟨d, deed, live, asks⟩
    exact ⟨d.tab, live, d, deed, rfl, asks⟩
  · rintro ⟨tab, live, d, deed, rfl, asks⟩
    exact ⟨d, deed, live, asks⟩

instance (h : Host σ) (ev : Event σ) : Decidable (∃ tab, h.AcceptsDestroy tab ev) :=
  decidable_of_iff _ acceptsDestroy_iff

/-- How many destroys are accepted in some events. -/
def destroysIn (build : Build) : List (Event σ) → Host σ → Nat
  | [], _ => 0
  | ev :: rest, h =>
    (if ∃ tab, h.AcceptsDestroy tab ev then 1 else 0) +
      destroysIn build rest (h.step build ev).state

theorem destroysIn_cons (build : Build) (ev : Event σ) (rest : List (Event σ)) (h : Host σ) :
    h.destroysIn build (ev :: rest) =
      (h.acceptsDestroy ev).toNat + (h.step build ev).state.destroysIn build rest := by
  simp only [destroysIn, ← acceptsDestroy_iff]
  cases h.acceptsDestroy ev <;> rfl

theorem pullInbox_of_nil (h : Host σ) (empty : h.inbox = []) : h.pullInbox = h := by
  obtain ⟨settings, shared, tabs, retired, inbox⟩ := h
  cases empty
  rfl

theorem work_of_nil (empty : h.inbox = []) : h.work = h.shared.queue.work := by
  rw [work, h.pullInbox_of_nil empty]

/-- Queueing what is in the inbox makes no work. -/
theorem size_pullInbox (h : Host σ) : h.pullInbox.shared.queue.size = h.waiting :=
  (RunQueue.size_deliver_all h.inbox h.shared.queue).trans (Nat.add_comm _ _)

theorem takeTask?_eq_none_iff : h.takeTask? = none ↔ h.pullInbox.shared.queue.isIdle = true :=
  Option.map_eq_none_iff.trans RunQueue.pop?_eq_none_iff

/-- A task that is taken out is work, and one of those that waited. -/
theorem account_takeTask? (ht : h.takeTask? = some (task, h')) :
    h'.inbox = [] ∧ h'.tabs = h.tabs ∧ h.work = task.work + h'.shared.queue.work ∧
      h.waiting = h'.shared.queue.size + 1 := by
  obtain ⟨⟨t, r⟩, hpop, heq⟩ := Option.map_eq_some_iff.mp ht
  cases heq
  exact ⟨rfl, rfl, RunQueue.work_of_pop? hpop,
    (size_pullInbox h).symm.trans (RunQueue.size_pop? hpop)⟩

theorem step_runOne (build : Build) (ht : h.takeTask? = some (task, h')) :
    h.step build .runOne = h'.runTask build task := by
  rw [step, runOne, ht]

theorem inbox_of_task (build : Build) (ht : h.takeTask? = some (task, h')) :
    (h'.runTask build task).state.inbox = [] :=
  (inbox_runTask build task h').trans (account_takeTask? ht).1

/-- A task lowers the work there is, whether it comes to its end or not. -/
theorem work_runTask (build : Build) (hs : h.Sound) (ht : h.takeTask? = some (task, h')) :
    (h'.runTask build task).state.work < h.work := by
  obtain ⟨-, tabs, work, -⟩ := account_takeTask? ht
  have pos := task.work_pos
  rw [work_of_nil (inbox_of_task build ht), work]
  cases hget : h'.tabs.get? task.tab with
  | none =>
    rw [(runTask_of_none build task hget).1]
    omega
  | some t =>
    have sound := (hs task.tab t (tabs ▸ hget)).1
    have acts := acts_reap (acts_onTab build hget task.act)
      (Seat.sound_act build (s := { tab := t, shared := h'.shared }) sound
        (act_ne_drop (deed?_runOne ht)))
    rw [runTask_of_some build task hget, acts.shared]
    have less := (Seat.progresses_act build task.act (s := { tab := t, shared := h'.shared })
      sound).work
    dsimp only at less
    omega

/-- How many tabs are to be destroyed after an act that is done to one of them. -/
theorem destroying_acts {build : Build} {a : Act} {t : Tab σ} {around : Shared}
    {o : Outcome Effect (Host σ)} (htab : h.tabs.get? tab = some t)
    (acts : Acts build h tab a { tab := t, shared := around } o) :
    o.state.destroying + (decide (t.state = .destroying)).toNat = h.destroying +
      (decide ((Seat.act build a { tab := t, shared := around }).state.tab.state =
        .destroying)).toNat := by
  have own : (o.state.tabs.get? tab).any (fun t => decide (t.state = .destroying)) =
      decide ((Seat.act build a { tab := t, shared := around }).state.tab.state =
        .destroying) := by
    rcases acts.own with hown | ⟨hnone, hdel⟩
    · rw [hown, Option.any_some]
    · rw [hnone, hdel]
      rfl
  rw [destroying, destroying, Table.countP_values _ _ tab, Table.countP_values h.tabs _ tab, own,
    Table.erase_eq_of_forall acts.others, htab, Option.any_some]
  omega

/-- A task is one of those that waited; it makes two more if it is a destroy that is accepted. -/
theorem waiting_runTask (build : Build) (hs : h.Sound) (ht : h.takeTask? = some (task, h')) :
    (h'.runTask build task).state.waiting + (h'.runTask build task).state.destroying + 1 =
      h.waiting + h.destroying + 2 * (h.acceptsDestroy .runOne).toNat := by
  obtain ⟨-, tabs, -, waiting⟩ := account_takeTask? ht
  have inbox := inbox_of_task build ht
  have accepts : h.acceptsDestroy .runOne = (h.isLive task.tab && task.act.asksDestroy) := by
    rw [acceptsDestroy, deed?_runOne ht, Option.any_some]
  rw [Host.waiting, inbox, List.length_nil, Nat.zero_add, accepts, waiting]
  cases hget : h'.tabs.get? task.tab with
  | none =>
    have dead : h.isLive task.tab = false := isLive_of_none (tabs ▸ hget)
    rw [(runTask_of_none build task hget).1, dead, destroying, tabs, ← destroying,
      Bool.false_and, Bool.toNat_false]
    omega
  | some t =>
    have hget' : h.tabs.get? task.tab = some t := tabs ▸ hget
    have sound := (hs task.tab t hget').1
    have acts := acts_reap (acts_onTab build hget task.act)
      (Seat.sound_act build (s := { tab := t, shared := h'.shared }) sound
        (act_ne_drop (deed?_runOne ht)))
    rw [runTask_of_some build task hget, acts.shared, isLive_of_get? hget']
    have size := (Seat.progresses_act build task.act (s := { tab := t, shared := h'.shared })
      sound).size
    have count := destroying_acts hget acts
    have same : h'.destroying = h.destroying := by rw [destroying, tabs, ← destroying]
    dsimp only at size
    omega

/-! ## The work of many tasks -/

theorem destroysIn_append (build : Build) {evs : List (Event σ)}
    (hf : (h.runs build evs).fault = none) (evs' : List (Event σ)) :
    h.destroysIn build (evs ++ evs') =
      h.destroysIn build evs + (h.runs build evs).state.destroysIn build evs' := by
  induction evs generalizing h with
  | nil => exact (Nat.zero_add _).symm
  | cons ev rest ih =>
    obtain ⟨first, later⟩ := Outcome.fault_andThen_eq_none_iff.mp hf
    rw [List.cons_append, destroysIn_cons, destroysIn_cons, ih later, runs,
      Outcome.state_andThen first, Nat.add_assoc]

/-- A tab that dispatches what it kept back is not asked to be destroyed. -/
theorem destroysIn_flush (build : Build) (tabs : List TabId) (h : Host σ) :
    h.destroysIn build (tabs.map .flush) = 0 := by
  induction tabs generalizing h with
  | nil => rfl
  | cons first rest ih =>
    have none : h.acceptsDestroy (.flush first) = false := Bool.and_false _
    rw [List.map_cons, destroysIn_cons, ih, none]
    rfl

/-- No destroy is accepted where no task is due. -/
theorem destroysIn_of_idle (build : Build) (empty : h.inbox = []) (idle : h.takeTask? = none)
    (n : Nat) : h.destroysIn build (List.replicate n .runOne) = 0 := by
  induction n with
  | zero => rfl
  | succ n ih =>
    have one : h.step build .runOne = .ok h := by
      rw [step, runOne, idle, h.pullInbox_of_nil empty]
    have none : h.acceptsDestroy .runOne = false := by
      rw [acceptsDestroy, deed?, idle]
      rfl
    rw [List.replicate_succ, destroysIn_cons, one, Outcome.state_ok, ih, none]
    rfl

theorem takeTask?_pullInbox (h : Host σ) : h.pullInbox.takeTask? = none ↔ h.takeTask? = none := by
  rw [takeTask?_eq_none_iff, takeTask?_eq_none_iff]
  rfl

/-- What tasks come to that all come to their ends: they are counted, and what was not work
before is two for each destroy that was accepted. -/
theorem ran_runTasks (build : Build) (n ran : Nat) (hs : h.Sound)
    (hf : (runTasks build n (ran, h)).fault = none) :
    (runTasks build n (ran, h)).state.1 + (runTasks build n (ran, h)).state.2.waiting +
        (runTasks build n (ran, h)).state.2.destroying =
      ran + h.waiting + h.destroying +
        2 * h.destroysIn build (List.replicate n .runOne) := by
  induction n generalizing ran h with
  | zero => rfl
  | succ n ih =>
    rw [runTasks] at hf ⊢
    cases ht : h.takeTask? with
    | none =>
      have waits : h.pullInbox.waiting = h.waiting :=
        (Nat.zero_add _).trans (size_pullInbox h)
      have none : h.acceptsDestroy .runOne = false := by
        rw [acceptsDestroy, deed?, ht]
        rfl
      have later :
          (h.step build .runOne).state.destroysIn build (List.replicate n .runOne) = 0 := by
        rw [step, runOne, ht]
        exact destroysIn_of_idle build rfl ((takeTask?_pullInbox h).mpr ht) n
      rw [List.replicate_succ, destroysIn_cons, later, none]
      show ran + h.pullInbox.waiting + h.destroying = _
      rw [waits]
      rfl
    | some r =>
      obtain ⟨task, h'⟩ := r
      rw [ht] at hf
      dsimp only at hf ⊢
      obtain ⟨first, later⟩ := Outcome.fault_andThen_eq_none_iff.mp hf
      have step := step_runOne build ht
      have sound := sound_step build hs .runOne
      have one := waiting_runTask build hs ht
      rw [Outcome.state_andThen first, List.replicate_succ, destroysIn_cons, step]
      rw [step] at sound
      have rest := ih (ran + 1) sound later
      dsimp only [Outcome.state_map] at rest ⊢
      omega

/-- Tasks come to an end when there are no more of them than there may be. -/
theorem idle_runTasks (build : Build) {n ran : Nat} (hs : h.Sound) (enough : h.work < n)
    (hf : (runTasks build n (ran, h)).fault = none) :
    (runTasks build n (ran, h)).state.2.inbox = [] ∧
      (runTasks build n (ran, h)).state.2.shared.queue.isIdle = true := by
  induction n generalizing ran h with
  | zero => exact absurd enough (Nat.not_lt_zero _)
  | succ n ih =>
    rw [runTasks] at hf ⊢
    cases ht : h.takeTask? with
    | none => exact ⟨rfl, takeTask?_eq_none_iff.mp ht⟩
    | some r =>
      obtain ⟨task, h'⟩ := r
      rw [ht] at hf
      dsimp only at hf ⊢
      obtain ⟨first, later⟩ := Outcome.fault_andThen_eq_none_iff.mp hf
      have sound := sound_step build hs .runOne
      rw [step_runOne build ht] at sound
      have less := work_runTask build hs ht
      rw [Outcome.state_andThen first]
      exact ih sound (Nat.lt_of_lt_of_le less (Nat.le_of_lt_succ enough)) later

end Host

end TabHost
