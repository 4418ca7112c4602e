import TabHost.Proofs.Host.Settling
import TabHost.Proofs.Host.WheelOrder

/-!
# Every envelope is delivered once

The tasks that are done in some events are those that the host takes out, one after the other,
up to a fault (`Host.tasksIn`). Of each priority, the envelopes among them are what was posted,
in the order in which it was posted, as far as the host has come (`Host.account_ranIn`). So no
envelope is lost, none is delivered twice, and none overtakes another one of its priority; a
task of normal priority is only taken out when no envelope of input priority is left, and a host
without work has delivered all that was posted (`Host.delivers_in_order`).
-/

set_option linter.unusedSectionVars false

namespace TabHost

/-- How urgent a task is. -/
def Task.priority : Task → Priority
  | .deliver e => e.priority
  | .delete d => d.priority

variable {σ : Type} [Content σ]

namespace Host

variable {h h' : Host σ} {ev : Event σ} {p : Priority}

/-! ## What is done -/

/-- The task that an event does. -/
def taskOf (h : Host σ) : Event σ → List Task
  | .runOne => (h.takeTask?.map Prod.fst).toList
  | _ => []

/-- The tasks that are done in some events, the last of which may have a fault. -/
def tasksIn (build : Build) : List (Event σ) → Host σ → List Task
  | [], _ => []
  | ev :: rest, h =>
    match (h.step build ev).fault with
    | some _ => h.taskOf ev
    | none => h.taskOf ev ++ tasksIn build rest (h.step build ev).state

/-- The envelopes of a priority that are delivered in some events. -/
def ranIn (build : Build) (p : Priority) (evs : List (Event σ)) (h : Host σ) : List Envelope :=
  (envelopesOf (h.tasksIn build evs)).filter fun e => e.priority = p

/-- No work waits. -/
def IsIdle (h : Host σ) : Prop := h.inbox = [] ∧ h.shared.queue.isIdle = true

/-! ## One event -/

/-- What is taken out at a priority is of that priority. -/
theorem priority_of_mem_doneAt (hq : h.shared.queue.Placed) {e : Envelope}
    (he : e ∈ envelopesOf (h.doneAt p ev)) : e.priority = p := by
  cases ev with
  | runOne =>
    refine placed_pullInbox hq p e ?_
    rw [tasks_pullInbox_eq, envelopesOf_append]
    exact List.mem_append_left _ he
  | _ => cases he

/-- The task that an event does is the one that it does at either priority. -/
theorem taskOf_eq (h : Host σ) (ev : Event σ) :
    h.taskOf ev = h.doneAt .input ev ++ h.doneAt .normal ev := by
  cases ev with
  | runOne =>
    cases ht : h.takeTask? with
    | none =>
      have idle : h.pullInbox.shared.queue.pop? = none := Option.map_eq_none_iff.mp ht
      simp only [taskOf, ht, doneAt, RunQueue.next_of_pop?_eq_none idle]
      rfl
    | some r => rw [taskOf, doneAt_runOne ht, ht]; rfl
  | _ => rfl

theorem filter_envelopesOf_taskOf (hq : h.shared.queue.Placed) (ev : Event σ) (p : Priority) :
    ((envelopesOf (h.taskOf ev)).filter fun e => e.priority = p) =
      envelopesOf (h.doneAt p ev) := by
  have own : ∀ p, ((envelopesOf (h.doneAt p ev)).filter fun e => e.priority = p) =
      envelopesOf (h.doneAt p ev) := fun p =>
    List.filter_eq_self.mpr fun e he => by simpa using priority_of_mem_doneAt hq he
  have other : ∀ p', p' ≠ p → ((envelopesOf (h.doneAt p' ev)).filter fun e => e.priority = p) =
      [] := fun p' hne =>
    List.filter_eq_nil_iff.mpr fun e he => by simpa [priority_of_mem_doneAt hq he] using hne
  rw [taskOf_eq, envelopesOf_append, List.filter_append]
  cases p with
  | input => rw [own, other .normal (by simp), List.append_nil]
  | normal => rw [own, other .input (by simp), List.nil_append]

/-! ## Runs -/

/-- The envelopes of a priority that wait or are posted are delivered in their order, as far as
the host comes, and what is left waits. -/
theorem account_ranIn (build : Build) {evs : List (Event σ)} {h : Host σ} (hs : h.Sound)
    (hq : h.shared.queue.Placed) (running : .shutdown ∉ evs) (p : Priority) :
    ∃ left, h.ranIn build p evs ++ left = h.envelopesAt p ++ posted p evs ∧
      ((h.runs build evs).fault = none → left = (h.runs build evs).state.envelopesAt p) := by
  induction evs generalizing h with
  | nil => exact ⟨h.envelopesAt p, (List.append_nil _).symm, fun _ => rfl⟩
  | cons ev rest ih =>
    have ne : ev ≠ .shutdown := fun h => running (h ▸ List.mem_cons_self)
    have whole : h.envelopesAt p ++ posted p (ev :: rest) =
        envelopesOf (h.doneAt p ev) ++
          ((h.step build ev).state.envelopesAt p ++ posted p rest) := by
      rw [← List.append_assoc, envelopes_step build hs ne, List.append_assoc, ← posted_append]
      rfl
    rw [whole, ranIn, tasksIn, runs]
    cases first : (h.step build ev).fault with
    | some f =>
      refine ⟨_, congrArg (· ++ _) (filter_envelopesOf_taskOf hq ev p), fun later => ?_⟩
      rw [Outcome.andThen_of_fault first] at later
      cases first.symm.trans later
    | none =>
      obtain ⟨left, later, waits⟩ := ih (sound_step build hs ev) (placed_step build hs hq ev)
        fun h => running (List.mem_cons_of_mem _ h)
      refine ⟨left, ?_, ?_⟩
      · dsimp only
        rw [envelopesOf_append, List.filter_append, filter_envelopesOf_taskOf hq,
          List.append_assoc, ← later]
        rfl
      · rw [Outcome.fault_andThen first, Outcome.state_andThen first]
        exact waits

/-- A host that comes to the end of some events has delivered all but what waits. -/
theorem ranIn_append_waiting (build : Build) {evs : List (Event σ)} (hs : h.Sound)
    (hq : h.shared.queue.Placed) (running : .shutdown ∉ evs)
    (fault : (h.runs build evs).fault = none) (p : Priority) :
    h.ranIn build p evs ++ (h.runs build evs).state.envelopesAt p =
      h.envelopesAt p ++ posted p evs := by
  obtain ⟨left, account, waits⟩ := account_ranIn build hs hq running p
  rw [← waits fault]
  exact account

theorem envelopesAt_of_isIdle (idle : h.IsIdle) (p : Priority) : h.envelopesAt p = [] := by
  have none := idle.2
  simp only [RunQueue.isIdle, Bool.and_eq_true, List.isEmpty_iff] at none
  cases p <;> simp [envelopesAt, RunQueue.tasks, none, idle.1, envelopesOf]

/-- A task of normal priority is not taken out while anything waits at input priority. -/
theorem quiet_of_normal (hd : h.DeletesInOrder) (hq : h.shared.queue.Placed) {task : Task}
    (due : h.takeTask? = some (task, h')) (normal : task.priority = .normal) :
    h.envelopesAt .input = [] := by
  obtain ⟨⟨task', r⟩, hpop, heq⟩ := Option.map_eq_some_iff.mp due
  obtain rfl : task' = task := congrArg Prod.fst heq
  -- no task of normal priority waits among those of input priority
  have placed : task' ∉ h.pullInbox.shared.queue.tasks .input := by
    intro hm
    cases task' with
    | deliver e =>
      have here := placed_pullInbox hq .input e
        (List.mem_filterMap.mpr ⟨_, hm, rfl⟩)
      exact absurd (here.symm.trans normal) (by simp)
    | delete d =>
      rw [tasks_pullInbox] at hm
      rcases List.mem_append.mp hm with hm | hm
      · exact absurd ((hd.of_mem hm).1.trans normal) (by simp)
      · obtain ⟨e, -, he⟩ := List.mem_map.mp hm
        cases he
  rw [envelopesAt_eq]
  unfold RunQueue.pop? at hpop
  split at hpop
  · next hi =>
    cases hpop
    refine absurd ?_ placed
    rw [RunQueue.tasks, hi]
    exact List.mem_cons_self
  · next hi hn =>
    rw [RunQueue.tasks, hi]
    rfl
  · cases hpop

/-- A host that worked until it was idle is idle. -/
theorem isIdle_start (build : Build) (hs : h.Sound) (hf : (h.start build).fault = none) :
    (h.start build).state.IsIdle := by
  have fault : (h.runUntilIdle build).fault = none := hf
  obtain ⟨tasks, -⟩ := Outcome.fault_andThen_eq_none_iff.mp fault
  obtain ⟨inbox, queue⟩ := idle_runTasks build hs (Nat.lt_succ_self _) tasks
  obtain ⟨inbox', queue'⟩ := idle_flushTabs (runTasks build (h.work + 1) (0, h)).state.2.tabs.keys
    (runTasks build (h.work + 1) (0, h)).state.2
  have state : (h.start build).state =
      (runTasks build (h.work + 1) (0, h)).state.2.flushAll.state := by
    rw [start, Outcome.state_map, runUntilIdle, Outcome.state_andThen tasks]
    rfl
  rw [state]
  exact ⟨inbox'.trans inbox, (congrArg RunQueue.isIdle queue').trans queue⟩

/-- Nothing is posted in a run until idle itself. -/
theorem posted_idleEvents (build : Build) (h : Host σ) (p : Priority) :
    posted p (h.idleEvents build) = [] := by
  refine List.filter_eq_nil_iff.mpr fun e he => ?_
  obtain ⟨ev, hev, posts⟩ := List.mem_filterMap.mp he
  have cases := mem_eventsOf (show ev ∈ h.eventsOf build .runUntilIdle from hev)
  rcases cases.resolve_left (by simp) with rfl | ⟨tab, rfl⟩ <;> cases posts

/-! ## All that is done to a host -/

/-- What a host delivers in some events, of all that is posted. -/
structure DeliversInOrder (build : Build) (evs : List (Event σ)) (h : Host σ) : Prop where
  /-- At each priority, the first that were posted are delivered, in the same order. -/
  inOrder : ∀ p, h.ranIn build p evs <+: posted p evs
  /-- When a task of normal priority is taken out, all that was posted at input priority is
  delivered. -/
  inputFirst : ∀ first rest task h', evs = first ++ .runOne :: rest →
    (h.runs build first).fault = none →
    (h.runs build first).state.takeTask? = some (task, h') → task.priority = .normal →
    h.ranIn build .input first = posted .input first
  /-- When no work waits, all that was posted is delivered. -/
  idle : (h.runs build evs).fault = none → (h.runs build evs).state.IsIdle →
    ∀ p, h.ranIn build p evs = posted p evs
  /-- So it is after a run until idle. -/
  untilIdle : (h.runs build evs).fault = none →
    ((h.runs build evs).state.start build).fault = none →
    ∀ p, h.ranIn build p (evs ++ (h.runs build evs).state.idleEvents build) = posted p evs

/-- Whatever a new host is asked to do short of its end, every envelope that is posted is
delivered once, and in its turn. -/
theorem delivers_in_order (build : Build) (settings : Settings) (clock : Duration)
    (surfaces : Surfaces) {evs : List (Event σ)} (running : .shutdown ∉ evs) :
    (new settings clock surfaces).DeliversInOrder build evs := by
  have ho := orderly_new (σ := σ) settings clock surfaces
  have hq := placed_new (σ := σ) settings clock surfaces
  have empty := envelopesAt_new (σ := σ) settings clock surfaces
  have reached : ∀ {evs : List (Event σ)},
      ((new settings clock surfaces).runs build evs).fault = none →
      ((new settings clock surfaces).runs build evs).state.shared.queue.Placed :=
    fun fault => ((Reachable.new settings clock surfaces).runs fault).placed
  generalize new settings clock surfaces = h₀ at *
  -- a host with nothing left to deliver at a priority has delivered all that was posted
  have all : ∀ {evs : List (Event σ)} {p}, .shutdown ∉ evs → (h₀.runs build evs).fault = none →
      (h₀.runs build evs).state.envelopesAt p = [] → h₀.ranIn build p evs = posted p evs := by
    intro evs p running fault none
    have account := ranIn_append_waiting build ho.sound hq running fault p
    rwa [none, empty, List.append_nil, List.nil_append] at account
  refine ⟨fun p => ?_, fun first rest task h' split fault due normal => ?_, fun fault idle p => ?_,
    fun fault fault' p => ?_⟩
  · obtain ⟨left, account, -⟩ := account_ranIn build ho.sound hq running p
    exact ⟨left, by rw [account, empty, List.nil_append]⟩
  · have running' : .shutdown ∉ first := fun hm => running (by rw [split]; simp [hm])
    have orderly := orderly_runs build ho running' fault
    exact all running' fault (quiet_of_normal orderly.order (reached fault) due normal)
  · exact all running fault (envelopesAt_of_isIdle idle p)
  · have sound := (orderly_runs build ho running fault).sound
    have idle := isIdle_start build sound fault'
    have whole := start_eq_runs build (h₀.runs build evs).state
    have state : (h₀.runs build (evs ++ (h₀.runs build evs).state.idleEvents build)).state =
        ((h₀.runs build evs).state.start build).state := by
      rw [runs_append, Outcome.state_andThen fault, ← whole]
    have ends : (h₀.runs build (evs ++ (h₀.runs build evs).state.idleEvents build)).fault =
        none := by
      rw [runs_append, Outcome.fault_andThen fault, ← whole]
      exact fault'
    have running' : .shutdown ∉ evs ++ (h₀.runs build evs).state.idleEvents build := fun hm =>
      (List.mem_append.mp hm).elim running (shutdown_not_mem_idleEvents build _)
    rw [all running' ends (envelopesAt_of_isIdle (state ▸ idle) p), posted_append,
      posted_idleEvents, List.append_nil]

/-- Work for two tabs. -/
def mixed : List (Event Headless) :=
  [.create { value := 7 } {}, .create { value := 8 } {}, .post (activation .normal true),
    .post { tab := { value := 7 }, request := .destroy }, .post (activation .input true), .runOne,
    .post (activation .normal false)]

/-- More of it; the first tab is destroyed, and the first pass of its delete waits. -/
def mixedOn : List (Event Headless) := [.runOne, .runOne, .post (activation .input false)]

/-- The work of input priority was delivered before any other, what came later waits behind the
rest, and in the end all is delivered. -/
theorem delivers_in_order_mixed :
    (new {} .zero {}).ranIn .checked .input mixed = posted .input mixed ∧
    (new {} .zero {}).ranIn .checked .normal (mixed ++ mixedOn) <+: posted .normal mixed ∧
    ∀ p, (new {} .zero {}).ranIn .checked p (mixed ++ mixedOn ++
      ((new {} .zero {}).runs .checked (mixed ++ mixedOn)).state.idleEvents .checked) =
        posted p (mixed ++ mixedOn) := by
  have running : .shutdown ∉ mixed ++ mixedOn := by simp [mixed, mixedOn]
  have delivers := delivers_in_order .checked {} .zero {} running
  refine ⟨?_, delivers.inOrder .normal, delivers.untilIdle (by rfl) (by rfl)⟩
  exact delivers.inputFirst mixed _ (.deliver (activation .normal true)) _ rfl (by rfl) rfl rfl

end Host

end TabHost
