import TabHost.Content.Headless
import TabHost.Proofs.Host.History
import TabHost.Proofs.Host.Roll
import TabHost.Proofs.Host.Tenancy
import TabHost.Proofs.Host.Waiting

/-!
# Deletion in two passes

How far a tab is in being deleted is told three times: by its stage of life, by the pass of
its delete that waits, and by the queue in which it waits. The three agree
(`Host.deletes_consistently`): a pass waits just for a tab at the stage that the pass is for,
once, and at the priority of the pass. So a pass never comes too late, for a tab that was
created again under the same id.

The ids of tabs that were deleted are those of no tab, and no id that ever was is lost
(`Host.RollCase`).
-/

set_option linter.unusedSectionVars false

namespace TabHost

/-! ## The passes that wait -/

/-- Whether a task is a pass of a delete. -/
def Task.isPass (d : DeletePass) : Task → Bool
  | .deliver _ => false
  | .delete d' => d' = d

/-- How often a pass waits at a priority. -/
def RunQueue.passes (q : RunQueue) (p : Priority) (d : DeletePass) : Nat :=
  (q.tasks p).countP (Task.isPass d)

namespace DeletePass

/-- How often a pass is due to wait at a priority for its tab at a stage of life. -/
def dueAt (d : DeletePass) (p : Priority) (stage : Lifecycle) : Nat :=
  if p = d.priority ∧ stage = d.stage then 1 else 0

variable {d d' : DeletePass} {p : Priority}

theorem stage_eq_iff (h : d.tab = d'.tab) : d.stage = d'.stage ↔ d = d' := by
  obtain ⟨tab, ready⟩ := d
  obtain ⟨tab', ready'⟩ := d'
  obtain rfl : tab = tab' := h
  cases ready <;> cases ready' <;> simp [stage]

theorem dueAt_of_isLive {stage : Lifecycle} (h : stage.isLive = true) : d.dueAt p stage = 0 := by
  refine if_neg fun due => ?_
  rw [due.2, d.isLive_stage] at h
  cases h

theorem dueAt_deleted : d.dueAt p .deleted = 0 := by
  refine if_neg fun due => ?_
  have deleted := due.2
  unfold stage at deleted
  split at deleted <;> cases deleted

/-- At the stage that a pass is for, no other pass is due. -/
theorem dueAt_stage (h : d'.tab = d.tab) :
    d.dueAt p d'.stage = if d' = d ∧ p = d.priority then 1 else 0 := by
  simp only [dueAt, stage_eq_iff h, and_comm]

end DeletePass

namespace RunQueue

variable {q r : RunQueue} {p : Priority} {d : DeletePass} {t : Task}

theorem passes_push (p' : Priority) (t : Task) (q : RunQueue) :
    (q.push p' t).passes p d = q.passes p d + if p' = p ∧ t.isPass d = true then 1 else 0 := by
  cases p <;> cases p' <;> simp [passes, push, tasks, List.countP_append, List.countP_cons]

theorem passes_schedule (d' : DeletePass) (q : RunQueue) :
    (q.schedule d').passes p d = q.passes p d + if d' = d ∧ p = d.priority then 1 else 0 := by
  rw [schedule, passes_push]
  by_cases same : d' = d
  · subst same
    simp [Task.isPass, eq_comm]
  · simp [Task.isPass, same]

theorem passes_deliver_all (es : List Envelope) (q : RunQueue) :
    (es.foldl (fun q e => q.deliver e) q).passes p d = q.passes p d := by
  induction es generalizing q with
  | nil => rfl
  | cons e es ih =>
    rw [List.foldl_cons, ih, deliver, passes_push, if_neg (by simp [Task.isPass]), Nat.add_zero]

/-- A task that is taken out waits no more. -/
theorem passes_of_pop? (h : q.pop? = some (t, r)) : ∃ p', ∀ p d,
    q.passes p d = r.passes p d + if p' = p ∧ t.isPass d = true then 1 else 0 := by
  have behind : ∀ (d : DeletePass) (rest : List Task), (t :: rest).countP (Task.isPass d) =
      rest.countP (Task.isPass d) + if t.isPass d = true then 1 else 0 :=
    fun _ _ => List.countP_cons
  unfold pop? at h
  split at h
  · next hi =>
    cases h
    refine ⟨.input, fun p d => ?_⟩
    cases p with
    | input => simpa [passes, tasks, hi] using behind d _
    | normal => simp [passes, tasks]
  · next hi hn =>
    cases h
    refine ⟨.normal, fun p d => ?_⟩
    cases p with
    | input => simp [passes, tasks]
    | normal => simpa [passes, tasks, hn] using behind d _
  · cases h

end RunQueue

variable {σ : Type} [Content σ]

namespace Seat

variable {s : Seat σ} {a : Act} {o : Outcome Effect (Seat σ)} {p : Priority} {d : DeletePass}

/-- How often a pass is due to wait for a tab. -/
def due (s : Seat σ) (p : Priority) (d : DeletePass) : Nat :=
  if d.tab = s.tab.id then d.dueAt p s.tab.state else 0

/-- A pass that is scheduled for a tab at its stage is the only one that is due. -/
theorem due_of_stage (pass : DeletePass) (name : pass.tab = s.tab.id)
    (at' : s.tab.state = pass.stage) :
    s.due p d = if pass = d ∧ p = d.priority then 1 else 0 := by
  unfold due
  split
  · next hk => rw [at', DeletePass.dueAt_stage (name.trans hk.symm)]
  · next hk =>
    refine (if_neg ?_).symm
    rintro ⟨rfl, -⟩
    exact hk name

theorem due_of_isLive (live : s.tab.state.isLive = true) : s.due p d = 0 := by
  unfold due
  split
  · exact DeletePass.dueAt_of_isLive live
  · rfl

theorem due_of_deleted (deleted : s.tab.state = .deleted) : s.due p d = 0 := by
  unfold due
  split
  · rw [deleted, DeletePass.dueAt_deleted]
  · rfl

/-- An act that does not do a pass queues the pass if it becomes due. -/
theorem Progresses.passes (h : Progresses s a o) (id : o.state.tab.id = s.tab.id)
    (name : ∀ pass, a = .pass pass → pass.tab = s.tab.id) (hp : a ≠ .pass d) :
    o.state.shared.queue.passes p d + s.due p d =
      s.shared.queue.passes p d + o.state.due p d := by
  -- another pass of the delete is not the one that is due
  have other : ∀ {pass : DeletePass}, a = .pass pass → s.tab.state = pass.stage →
      s.due p d = 0 := by
    intro pass act at'
    rw [due_of_stage pass (name pass act) at', if_neg]
    rintro ⟨rfl, -⟩
    exact hp act
  cases h with
  | stays _ _ state queue => simp only [queue, due, id, state]
  | asked live _ state queue =>
    rw [queue, RunQueue.passes_schedule, due_of_isLive live,
      due_of_stage { tab := s.tab.id } id.symm state]
    rfl
  | lost live _ state queue => rw [queue, due_of_isLive live, due_of_deleted state]
  | @bounced pass act ready before state queue =>
    have stage : s.tab.state = pass.stage := by
      rw [before, DeletePass.stage, if_neg (by simp [ready])]
    rw [queue, RunQueue.passes_schedule, other act stage,
      due_of_stage pass.second ((name pass act).trans id.symm) state]
    rfl
  | @finished pass act ready before state queue =>
    have stage : s.tab.state = pass.stage := by rw [before, DeletePass.stage, if_pos ready]
    rw [queue, other act stage, due_of_deleted state]

/-- A pass that is done at its stage queues the next one, if there is one. -/
theorem Progresses.passes_of_pass {pass : DeletePass} (h : Progresses s (.pass pass) o)
    (id : o.state.tab.id = s.tab.id) (name : pass.tab = s.tab.id)
    (at' : s.tab.state = pass.stage) :
    o.state.shared.queue.passes p d = s.shared.queue.passes p d + o.state.due p d := by
  cases h with
  | stays _ unfit => exact absurd at' (unfit pass rfl)
  | asked _ asks => cases asks
  | lost _ loses => cases loses
  | bounced act _ _ state queue =>
    cases act
    rw [queue, RunQueue.passes_schedule,
      due_of_stage pass.second (name.trans id.symm) state]
  | finished _ _ _ state queue => rw [queue, due_of_deleted state, Nat.add_zero]

end Seat

namespace Host

variable {h h' h₁ : Host σ} {tab : TabId} {ev : Event σ}

/-- Beside an event, a pass waits that waited before, unless the event does it. -/
theorem passes_waitingBeside (h : Host σ) (ev : Event σ) :
    (∃ p' pass around, h.deed? ev = some { tab := pass.tab, act := .pass pass, around } ∧
      ∀ p d, h.shared.queue.passes p d =
        (h.waitingBeside ev).passes p d + if p' = p ∧ pass = d then 1 else 0) ∨
    (∀ d, h.deed? ev = some d → ∀ pass, d.act ≠ .pass pass) ∧
      ∀ p d, h.shared.queue.passes p d = (h.waitingBeside ev).passes p d := by
  cases ev with
  | runOne =>
    have pulled : ∀ p d, h.pullInbox.shared.queue.passes p d = h.shared.queue.passes p d :=
      fun _ _ => RunQueue.passes_deliver_all h.inbox h.shared.queue
    cases hr : h.takeTask? with
    | none =>
      refine Or.inr ⟨fun d hd => ?_, fun p d => ?_⟩
      · rw [deed?, hr] at hd
        cases hd
      · rw [waitingBeside, hr]
        exact (pulled p d).symm
    | some r =>
      obtain ⟨r', hpop, rfl⟩ := Option.map_eq_some_iff.mp hr
      obtain ⟨p', taken⟩ := RunQueue.passes_of_pop? hpop
      obtain ⟨task, rest⟩ := r'
      cases task with
      | deliver e =>
        refine Or.inr ⟨fun d hd => ?_, fun p d => ?_⟩
        · rw [deed?, hr] at hd
          cases hd
          intro pass heq
          cases heq
        · rw [waitingBeside, hr, ← pulled, taken, if_neg (by simp [Task.isPass])]
          rfl
      | delete pass =>
        refine Or.inl ⟨p', pass, { h.shared with queue := rest }, deed?_runOne hr, fun p d => ?_⟩
        rw [waitingBeside, hr, ← pulled, taken]
        simp only [Task.isPass, decide_eq_true_eq]
  | create | createOver | post | setClock | surfaces | shutdown =>
    refine Or.inr ⟨fun d hd => ?_, fun _ _ => rfl⟩
    cases hd
  | flush | addBlocker | removeBlocker | destroy | push | hangUp =>
    refine Or.inr ⟨fun d hd pass heq => ?_, fun _ _ => rfl⟩
    cases hd
    cases heq

/-! ## Stages and passes -/

/-- The stage of life of a tab. -/
def stage? (h : Host σ) (tab : TabId) : Option Lifecycle := (h.tabs.get? tab).map Tab.state

/-- How often a pass is due to wait at a priority. -/
def due (h : Host σ) (p : Priority) (d : DeletePass) : Nat :=
  if p = d.priority ∧ h.stage? d.tab = some d.stage then 1 else 0

/-- A pass waits just for a tab at the stage that the pass is for, once, and at the priority of
the pass. -/
structure DeletesInOrder (h : Host σ) : Prop where
  stages : ∀ tab t, h.tabs.get? tab = some t →
    t.state = .active ∨ t.state = .destroying ∨ t.state = .awaitingSecondPass
  waits : ∀ p d, h.shared.queue.passes p d = h.due p d

variable {t : Tab σ} {p : Priority} {d : DeletePass}

theorem DeletesInOrder.ne_deleted (hd : h.DeletesInOrder) (ht : h.tabs.get? tab = some t) :
    t.state ≠ .deleted := by
  rcases hd.stages tab t ht with h | h | h <;> simp [h]

theorem stage?_of_some (ht : h.tabs.get? tab = some t) : h.stage? tab = some t.state := by
  rw [stage?, ht]
  rfl

theorem stage?_of_none (ht : h.tabs.get? tab = none) : h.stage? tab = none := by
  rw [stage?, ht]
  rfl

theorem due_of_some (ht : h.tabs.get? d.tab = some t) : h.due p d = d.dueAt p t.state := by
  simp only [due, DeletePass.dueAt, stage?_of_some ht, Option.some.injEq]

theorem due_of_none (ht : h.tabs.get? d.tab = none) : h.due p d = 0 := by
  simp [due, stage?_of_none ht]

theorem due_congr (same : h'.tabs.get? d.tab = h.tabs.get? d.tab) : h'.due p d = h.due p d := by
  rw [due, stage?, same, ← stage?, ← due]

/-- A pass waits just while its tab is at the stage that the pass is for, once, and at the
priority of the pass. -/
def Timely (h : Host σ) (d : DeletePass) : Prop := ∀ p, h.shared.queue.passes p d = h.due p d

theorem DeletesInOrder.timely (hd : h.DeletesInOrder) (d : DeletePass) : h.Timely d :=
  fun p => hd.waits p d

/-- A pass that an event does is for its tab, and does not wait any more then. -/
theorem Timely.beside (hd : h.Timely d) (ev : Event σ) :
    (∃ around, h.deed? ev = some { tab := d.tab, act := .pass d, around } ∧
      h.stage? d.tab = some d.stage ∧ ∀ p, (h.waitingBeside ev).passes p d = 0) ∨
    (∀ d', h.deed? ev = some d' → d'.act ≠ .pass d) ∧
      ∀ p, (h.waitingBeside ev).passes p d = h.due p d := by
  rcases passes_waitingBeside h ev with ⟨p', pass, around, deed, taken⟩ | ⟨none, same⟩
  · by_cases same : pass = d
    · subst same
      have own := taken p' pass
      rw [hd, if_pos ⟨rfl, rfl⟩, due] at own
      have here : p' = pass.priority ∧ h.stage? pass.tab = some pass.stage := by
        by_cases here : p' = pass.priority ∧ h.stage? pass.tab = some pass.stage
        · exact here
        · rw [if_neg here] at own
          omega
      refine Or.inl ⟨around, deed, here.2, fun p => ?_⟩
      have count := taken p pass
      rw [hd, due, here.1] at count
      by_cases at' : p = pass.priority
      · rw [if_pos ⟨at', here.2⟩, if_pos ⟨at'.symm, rfl⟩] at count
        omega
      · rw [if_neg fun due => at' due.1] at count
        omega
    · refine Or.inr ⟨fun d' deed' act => ?_, fun p => ?_⟩
      · rw [deed] at deed'
        cases deed'
        exact same (Act.pass.inj act)
      · have count := taken p d
        rwa [hd, if_neg fun h => same h.2, Nat.add_zero, eq_comm] at count
  · exact Or.inr ⟨fun d' deed => none d' deed d, fun p => (same p d).symm.trans (hd p)⟩

theorem DeletesInOrder.once (hd : h.DeletesInOrder) (d : DeletePass) :
    h.stage? d.tab = some d.stage ↔ h.shared.queue.passes d.priority d = 1 := by
  rw [hd.waits, due]
  constructor
  · exact fun at' => if_pos ⟨rfl, at'⟩
  · intro one
    split at one
    · next due => exact due.2
    · cases one

theorem DeletesInOrder.of_mem (hd : h.DeletesInOrder) (hm : .delete d ∈ h.shared.queue.tasks p) :
    p = d.priority ∧ h.stage? d.tab = some d.stage := by
  have pos : 0 < h.shared.queue.passes p d :=
    List.countP_pos_iff.mpr ⟨_, hm, by simp [Task.isPass]⟩
  rw [hd.waits, due] at pos
  split at pos
  · next due => exact due
  · cases pos

/-- What passes are due after an act that is done to one of the tabs. -/
theorem due_acts {build : Build} {a : Act} {s : Seat σ} {o : Outcome Effect (Host σ)}
    (acts : Acts build h tab a s o) : o.state.due p d =
      if d.tab = tab then d.dueAt p (Seat.act build a s).state.tab.state else h.due p d := by
  by_cases hk : d.tab = tab
  · subst hk
    rw [if_pos rfl]
    rcases acts.own with hown | ⟨hnone, hdel⟩
    · exact due_of_some hown
    · rw [due_of_none hnone, hdel, DeletePass.dueAt_deleted]
  · rw [if_neg hk, due_congr (acts.others d.tab hk)]

/-- Only a task does a pass. -/
theorem takeTask?_of_pass {d : Deed} (hd : h.deed? ev = some d) {pass : DeletePass}
    (act : d.act = .pass pass) :
    ev = .runOne ∧ pass.tab = d.tab ∧ ∃ h', h.takeTask? = some (.delete pass, h') := by
  cases ev with
  | runOne =>
    obtain ⟨⟨task, h'⟩, hr, rfl⟩ := Option.map_eq_some_iff.mp hd
    cases task with
    | deliver e => cases act
    | delete pass' =>
      cases act
      exact ⟨rfl, rfl, h', hr⟩
  | flush | addBlocker | removeBlocker | destroy | push | hangUp =>
    cases hd
    cases act
  | _ => cases hd

/-- After an act, a pass waits just if it is due. -/
theorem timely_acts {build : Build} {pass : DeletePass} (hd : h.Timely pass) {d : Deed}
    (deed : h.deed? ev = some d) (ht : h.tabs.get? d.tab = some t) (sound : t.Sound)
    (name : t.GoesBy d.tab) {o : Outcome Effect (Host σ)}
    (acts : Acts build h d.tab d.act { tab := t, shared := d.around } o) : o.state.Timely pass := by
  intro p
  have progress := Seat.progresses_act build d.act (s := { tab := t, shared := d.around }) sound
  have id := (Seat.own_act build d.act (s := { tab := t, shared := d.around }) sound name).1.id
  have around : d.around.queue = h.waitingBeside ev := queue_around deed
  rw [acts.shared, due_acts acts]
  rcases hd.beside ev with ⟨around', deed', at', none⟩ | ⟨undone, count⟩
  · cases deed.symm.trans deed'
    have stage := Option.some.inj ((stage?_of_some ht).symm.trans at')
    rw [progress.passes_of_pass (id.trans name.id.symm) name.id.symm stage, around, none,
      Nat.zero_add, if_pos rfl]
    exact if_pos id.symm
  · have own : ∀ pass', d.act = .pass pass' → pass'.tab = t.id := fun pass' act =>
      (takeTask?_of_pass deed act).2.1.trans name.id.symm
    have balance := progress.passes (p := p) (id.trans name.id.symm) own (undone d deed)
    rw [around, count] at balance
    unfold Seat.due at balance
    rw [id, name.id] at balance
    by_cases hk : pass.tab = d.tab
    · rw [if_pos hk, if_pos hk, due_of_some (hk ▸ ht)] at balance
      rw [if_pos hk]
      exact Nat.add_right_cancel (balance.trans (Nat.add_comm _ _))
    · rw [if_neg hk, if_neg hk] at balance
      rw [if_neg hk]
      exact balance

/-- Whatever happens to a host short of its end, a pass waits just for its tab at its stage. -/
theorem timely_step (build : Build) (hs : h.Sound) (hd : h.Timely d) (ne : ev ≠ .shutdown) :
    (h.step build ev).state.Timely d := by
  cases stepCase build hs ev with
  | quiet _ deed tabs =>
    intro p
    have same : (h.step build ev).state.due p d = h.due p d :=
      due_congr (congrArg (·.get? d.tab) tabs)
    rw [queue_step_of_quiet build ne deed, same]
    rcases hd.beside ev with ⟨around, deed', at', -⟩ | ⟨-, count⟩
    · rw [stage?_of_none (deed _ deed')] at at'
      cases at'
    · exact count p
  | created tab content link _ _ event new state =>
    intro p
    have queue : (h.step build ev).state.shared.queue = h.shared.queue := by
      rw [state]
      rfl
    rw [queue, hd, state]
    by_cases hk : d.tab = tab
    · -- no pass is due for a tab that is not there, nor for one that was just created
      subst hk
      have live : ((Tab.create d.tab h.settings content).connected link).state.isLive = true := rfl
      rw [due_of_none new]
      exact ((due_of_some (Table.get?_insert_self ..)).trans
        (DeletePass.dueAt_of_isLive live)).symm
    · exact (due_congr (Table.get?_insert_of_ne hk _ _)).symm
  | acted d' t deed htab _ acts =>
    exact timely_acts hd deed htab (hs _ _ htab).1 (hs _ _ htab).2 acts
  | shut event => exact absurd event ne

theorem stages_step (build : Build) (hs : h.Sound) (hd : h.DeletesInOrder)
    (hf : (h.step build ev).fault = none) {t' : Tab σ}
    (ht' : (h.step build ev).state.tabs.get? tab = some t') :
    t'.state = .active ∨ t'.state = .destroying ∨ t'.state = .awaitingSecondPass := by
  have undeleted : t'.state ≠ .deleted := by
    refine state_step_ne_deleted build hs (fun tab t ht => ?_) hf ht'
    rcases hd.stages tab t ht with h | h | h <;> rw [h] <;> decide
  cases tabCase build hs ht' with
  | spared _ before => exact hd.stages tab t' before
  | created content link _ _ state =>
    rw [state]
    exact Or.inl rfl
  | acted d t _ _ before _ _ _ state =>
    rw [state] at undeleted ⊢
    cases Seat.progresses_act build d.act (s := { tab := t, shared := d.around })
      (hs tab t before).1 with
    | stays _ _ same =>
      rw [same]
      exact hd.stages tab t before
    | asked _ _ same => exact Or.inr (Or.inl same)
    | bounced _ _ _ same => exact Or.inr (Or.inr same)
    | lost _ _ same => exact absurd same undeleted
    | finished _ _ _ same => exact absurd same undeleted

/-- Whatever happens to a host short of its end, passes wait just for tabs at their stages. -/
theorem deletesInOrder_step (build : Build) (hs : h.Sound) (hd : h.DeletesInOrder)
    (ne : ev ≠ .shutdown) (hf : (h.step build ev).fault = none) :
    (h.step build ev).state.DeletesInOrder :=
  ⟨fun _ _ ht => stages_step build hs hd hf ht,
    fun p d => timely_step build hs (hd.timely d) ne p⟩

theorem deletesInOrder_new (settings : Settings) (clock : Duration) (surfaces : Surfaces) :
    (new settings clock surfaces : Host σ).DeletesInOrder := by
  refine ⟨fun tab t ht => (by cases ht), fun p d => ?_⟩
  rw [due_of_none rfl]
  cases p <;> rfl

/-! ## No way back -/

theorem stage_step (build : Build) (hs : h.Sound) {t' : Tab σ} (ht : h.tabs.get? tab = some t)
    (ht' : (h.step build ev).state.tabs.get? tab = some t') :
    t.state.stage ≤ t'.state.stage := by
  cases tabCase build hs ht' with
  | spared _ before =>
    cases ht.symm.trans before
    exact Nat.le_refl _
  | created _ _ _ new => cases ht.symm.trans new
  | acted d t₁ _ _ before _ _ _ state =>
    cases ht.symm.trans before
    rw [state]
    exact (Seat.progresses_act build d.act (s := { tab := t, shared := d.around })
      (hs tab t ht).1).stage_le

theorem stage_runs (build : Build) {evs : List (Event σ)} (hs : h.Sound) {t' : Tab σ}
    (hu : Untouched tab (h.runs build evs).trace) (ht : h.tabs.get? tab = some t)
    (ht' : (h.runs build evs).state.tabs.get? tab = some t') :
    t.state.stage ≤ t'.state.stage := by
  induction evs generalizing h t with
  | nil =>
    cases ht.symm.trans ht'
    exact Nat.le_refl _
  | cons ev rest ih =>
    cases hf : (h.step build ev).fault with
    | some f =>
      rw [runs, Outcome.andThen_of_fault hf] at ht'
      exact stage_step build hs ht ht'
    | none =>
      rw [runs, Outcome.trace_andThen hf] at hu
      rw [runs, Outcome.state_andThen hf] at ht'
      have later := (untouched_append.mp hu).2
      have hs' := sound_step build hs ev
      cases hnext : (h.step build ev).state.tabs.get? tab with
      | none => cases (absent_runs build rest hs' hnext later).2.symm.trans ht'
      | some t₁ =>
        exact Nat.le_trans (stage_step build hs ht hnext) (ih hs' later hnext ht')

/-- A host that does tasks, or lets tabs dispatch what they kept back, creates no tab. -/
theorem untouched_runs (build : Build) {evs : List (Event σ)} (hs : h.Sound)
    (works : ∀ ev ∈ evs, ev = .runOne ∨ ∃ tab, ev = .flush tab) :
    Untouched tab (h.runs build evs).trace := by
  induction evs generalizing h with
  | nil => exact fun e he => absurd he List.not_mem_nil
  | cons ev rest ih =>
    have first : Untouched tab (h.step build ev).trace := by
      intro e he
      cases stepCase build hs ev with
      | quiet _ _ _ trace =>
        rw [trace] at he
        cases he
      | created _ _ _ _ _ event =>
        rcases works ev List.mem_cons_self with rfl | ⟨_, rfl⟩ <;>
          rcases event with ⟨_, h⟩ | ⟨_, _, h⟩ <;> cases h
      | acted d t _ htab _ acts =>
        rw [acts.trace] at he
        have own := (Seat.own_act build d.act (s := { tab := t, shared := d.around })
          (hs _ _ htab).1 (hs _ _ htab).2).2 e he
        cases e with
        | created => cases own
        | call => rfl
        | sent => rfl
      | shut event =>
        rcases works ev List.mem_cons_self with h | ⟨_, h⟩ <;> cases h.symm.trans event
    cases hf : (h.step build ev).fault with
    | some f =>
      rw [runs, Outcome.andThen_of_fault hf]
      exact first
    | none =>
      rw [runs, Outcome.trace_andThen hf]
      exact untouched_append.mpr ⟨first, ih (sound_step build hs ev)
        fun ev' h' => works ev' (List.mem_cons_of_mem _ h')⟩

/-- No operation moves a tab back. -/
theorem stage_perform (build : Build) (hs : h.Sound) (op : Op σ) {t' : Tab σ}
    (ht : h.tabs.get? tab = some t)
    (ht' : (h.perform build op).state.tabs.get? tab = some t') :
    t.state.stage ≤ t'.state.stage := by
  cases op with
  | event ev => exact stage_step build hs ht ht'
  | runUntilIdle =>
    rw [perform, start_eq_runs] at ht'
    refine stage_runs build hs (untouched_runs build hs fun ev hev => ?_) ht ht'
    have hev : ev ∈ h.eventsOf build .runUntilIdle := hev
    exact (mem_eventsOf hev).resolve_left (by simp)

/-! ## All that is done to a host -/

/-- Where its tabs are, the passes that wait and the ids that a host keeps agree with each
other. -/
structure DeletesConsistently (build : Build) (trace : List Effect) (h : Host σ) : Prop where
  stages : ∀ tab t, h.tabs.get? tab = some t →
    t.state = .active ∨ t.state = .destroying ∨ t.state = .awaitingSecondPass
  /-- The first pass waits for a tab that is to be destroyed, once. -/
  destroying : ∀ tab,
    h.stage? tab = some .destroying ↔ h.shared.queue.passes .normal { tab } = 1
  /-- The second pass waits for a tab that it is to delete, once. -/
  awaiting : ∀ tab, h.stage? tab = some .awaitingSecondPass ↔
    h.shared.queue.passes .input { tab, ready := true } = 1
  /-- No other pass waits, and none at another priority. -/
  only : ∀ p d, .delete d ∈ h.shared.queue.tasks p →
    p = d.priority ∧ h.stage? d.tab = some d.stage
  /-- No id of a tab is that of a deleted one. -/
  disjoint : ∀ tab ∈ h.retired, h.tabs.get? tab = none
  /-- No id that a tab was created under is lost. -/
  enrolled : ∀ tab, .created tab ∈ trace → (h.tabs.get? tab).isSome = true ∨ tab ∈ h.retired
  /-- No operation moves a tab back. -/
  forward : ∀ (op : Op σ) tab t t', h.tabs.get? tab = some t →
    (h.perform build op).state.tabs.get? tab = some t' → t.state.stage ≤ t'.state.stage

/-- What is kept up whatever happens to a host short of its end. -/
structure Orderly (h : Host σ) : Prop where
  sound : h.Sound
  order : h.DeletesInOrder
  disjoint : ∀ tab ∈ h.retired, h.tabs.contains tab = false

theorem orderly_new (settings : Settings) (clock : Duration) (surfaces : Surfaces) :
    (new settings clock surfaces : Host σ).Orderly :=
  ⟨sound_new settings clock surfaces, deletesInOrder_new settings clock surfaces,
    fun _ h => absurd h List.not_mem_nil⟩

theorem orderly_step (build : Build) (ho : h.Orderly) (ne : ev ≠ .shutdown)
    (fault : (h.step build ev).fault = none) : (h.step build ev).state.Orderly :=
  ⟨sound_step build ho.sound ev, deletesInOrder_step build ho.sound ho.order ne fault,
    (rollCase_step build ne h).disjoint ho.disjoint⟩

theorem orderly_runs (build : Build) {evs : List (Event σ)} (ho : h.Orderly)
    (running : .shutdown ∉ evs) (fault : (h.runs build evs).fault = none) :
    (h.runs build evs).state.Orderly :=
  runs_preserves (P := Orderly)
    (fun _ _ hm ho hf => orderly_step build ho (fun h => running (h ▸ hm)) hf) ho fault

/-- Whatever a host is asked to do, short of its end, its deletions are consistent. -/
theorem deletes_consistently (build : Build) (settings : Settings) (clock : Duration)
    (surfaces : Surfaces) {ops : List (Op σ)} (running : .event .shutdown ∉ ops)
    (fault : ((new settings clock surfaces).performs build ops).fault = none) :
    DeletesConsistently build ((new settings clock surfaces).performs build ops).trace
      ((new settings clock surfaces).performs build ops).state := by
  have running' : .shutdown ∉ (new settings clock surfaces).eventsOfAll build ops := by
    intro hm
    rcases mem_eventsOfAll hm with h | h | ⟨_, h⟩
    · exact running h
    · cases h
    · cases h
  rw [performs_eq_runs] at fault ⊢
  have orderly := orderly_runs build (orderly_new settings clock surfaces) running' fault
  refine ⟨orderly.order.stages, fun tab => orderly.order.once { tab },
    fun tab => orderly.order.once { tab, ready := true },
    fun p d hm => orderly.order.of_mem hm,
    fun tab hm => Table.contains_eq_false_iff.mp (orderly.disjoint tab hm), fun tab hm => ?_,
    fun op tab t t' ht ht' => stage_perform build orderly.sound op ht ht'⟩
  exact enrolled_runs build (sound_new settings clock surfaces) running' (Or.inr hm)

/-- Three tabs: one was deleted, the second pass waits for the next, and the first one for the
last. -/
def deletedInTurn : List (Op Headless) :=
  [.event (.create { value := 8 } {}), .event (.destroy { value := 8 }), .event .runOne,
    .event .runOne, .event (.create { value := 7 } {}), .event (.create { value := 9 } {}),
    .event (.destroy { value := 7 }), .event .runOne, .event (.destroy { value := 9 })]

/-- Each of the two passes waits once, in the queue of its priority. -/
theorem deletes_consistently_inTurn :
    (((new {} .zero {}).performs .checked deletedInTurn).state.stage? { value := 7 } =
        some .awaitingSecondPass ∧
      ((new {} .zero {}).performs .checked deletedInTurn).state.shared.queue.passes .input
        { tab := { value := 7 }, ready := true } = 1) ∧
    (((new {} .zero {}).performs .checked deletedInTurn).state.stage? { value := 9 } =
        some .destroying ∧
      ((new {} .zero {}).performs .checked deletedInTurn).state.shared.queue.passes .normal
        { tab := { value := 9 } } = 1) ∧
    ((new {} .zero {}).performs .checked deletedInTurn).state.retired = [{ value := 8 }] := by
  have running : .event .shutdown ∉ deletedInTurn := by simp [deletedInTurn]
  have consistent := deletes_consistently .checked {} .zero {} running (by rfl)
  exact ⟨⟨by rfl, (consistent.awaiting _).mp (by rfl)⟩,
    ⟨by rfl, (consistent.destroying _).mp (by rfl)⟩, by rfl⟩

end Host

end TabHost
