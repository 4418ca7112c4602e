import TabHost.Proofs.Host.Step
import TabHost.Proofs.Tab.Stages

/-!
# The work that waits

Whatever happens to a host, work that waits keeps its place, and new work goes behind all
that is of its priority (`RunQueue.GrowsTo`): an event takes the task out that it does, and
nothing else (`Host.growsTo_step`). So the first envelope of a channel stays the first one
until it is delivered (`Host.first?_waitingBeside`).
-/

set_option linter.unusedSectionVars false

namespace TabHost

namespace RunQueue

variable {q r u : RunQueue} {p : Priority} {c : Channel} {e : Envelope} {t : Task}

/-- What waits in a queue waits at the same place in a later one. -/
def GrowsTo (q r : RunQueue) : Prop := ∀ p, q.tasks p <+: r.tasks p

/-- The first envelope of a channel, among those of a priority. -/
def first? (q : RunQueue) (p : Priority) (c : Channel) : Option Envelope :=
  (q.tasks p).findSome? (envelopeOn? c)

namespace GrowsTo

theorem refl (q : RunQueue) : q.GrowsTo q := fun _ => List.prefix_rfl

theorem trans (h : q.GrowsTo r) (h' : r.GrowsTo u) : q.GrowsTo u :=
  fun p => (h p).trans (h' p)

theorem of_eq (h : r = q) : q.GrowsTo r := h ▸ .refl q

theorem push (p : Priority) (t : Task) (q : RunQueue) : q.GrowsTo (q.push p t) := by
  intro p'
  cases p <;> cases p' <;> simp [RunQueue.push, tasks]

theorem schedule (d : DeletePass) (q : RunQueue) : q.GrowsTo (q.schedule d) := .push _ _ q

/-- Envelopes are queued one behind the other. -/
theorem deliver_all (es : List Envelope) (q : RunQueue) :
    q.GrowsTo (es.foldl (fun q e => q.deliver e) q) := by
  induction es generalizing q with
  | nil => exact .refl q
  | cons e es ih => exact (GrowsTo.push _ _ q).trans (ih (q.deliver e))

theorem first? (h : q.GrowsTo r) (hq : q.first? p c = some e) : r.first? p c = some e :=
  (h p).findSome?_eq_some hq

end GrowsTo

theorem eq_deliver_of_envelopeOn? (h : envelopeOn? c t = some e) :
    t = .deliver e ∧ e.channel = c := by
  cases t with
  | delete => cases h
  | deliver e' =>
    simp only [envelopeOn?] at h
    split at h
    · next hc =>
      cases h
      exact ⟨rfl, hc⟩
    · cases h

/-- Taking a task out does not concern the first envelope of a channel, unless it is taken. -/
theorem first?_of_pop? (h : q.pop? = some (t, r)) (hq : q.first? p c = some e) :
    t = .deliver e ∨ r.first? p c = some e := by
  -- at the priority of the task, the first envelope is its own or is behind it
  have behind : ∀ rest, (t :: rest).findSome? (envelopeOn? c) = some e →
      t = .deliver e ∨ rest.findSome? (envelopeOn? c) = some e := by
    intro rest hrest
    rw [List.findSome?_cons] at hrest
    cases ht : envelopeOn? c t with
    | none =>
      rw [ht] at hrest
      exact Or.inr hrest
    | some e' =>
      rw [ht] at hrest
      cases hrest
      exact Or.inl (eq_deliver_of_envelopeOn? ht).1
  unfold pop? at h
  unfold RunQueue.first? at hq ⊢
  split at h
  · next hi =>
    cases h
    cases p with
    | input =>
      rw [tasks, hi] at hq
      exact behind _ hq
    | normal => exact Or.inr hq
  · next hi hn =>
    cases h
    cases p with
    | input => exact Or.inr hq
    | normal =>
      rw [tasks, hn] at hq
      exact behind _ hq
  · cases h

/-- Nothing comes first where nothing waits. -/
theorem first?_of_isIdle (h : q.isIdle = true) (p : Priority) (c : Channel) :
    q.first? p c = none := by
  simp only [isIdle, Bool.and_eq_true, List.isEmpty_iff] at h
  cases p <;> simp [RunQueue.first?, tasks, h]

end RunQueue

variable {σ : Type} [Content σ]

/-! ## Acts -/

namespace Seat

/-- What is done to a tab may make new work, and leaves the work that waits alone. -/
theorem growsTo_act (build : Build) (a : Act) {s : Seat σ} (h : s.tab.Sound) :
    s.shared.queue.GrowsTo (act build a s).state.shared.queue := by
  cases progresses_act build a h with
  | asked _ _ _ queue | bounced _ _ _ _ queue =>
    rw [queue]
    exact .schedule _ _
  | stays _ _ _ queue | lost _ _ _ queue | finished _ _ _ _ queue => exact .of_eq queue

end Seat

/-! ## Events -/

namespace Host

/-- The work that waits while an event happens: without the task that it does. -/
def waitingBeside (h : Host σ) : Event σ → RunQueue
  | .runOne =>
    match h.takeTask? with
    | none => h.pullInbox.shared.queue
    | some (_, h') => h'.shared.queue
  | _ => h.shared.queue

theorem queue_around {h : Host σ} {ev : Event σ} {d : Deed} (hd : h.deed? ev = some d) :
    d.around.queue = h.waitingBeside ev := by
  cases ev with
  | runOne =>
    obtain ⟨r, hr, rfl⟩ := Option.map_eq_some_iff.mp hd
    rw [waitingBeside, hr]
  | _ => cases hd <;> rfl

theorem queue_createIfNew (tab : TabId) (content : σ) (link : ParentLink) (h : Host σ) :
    (h.createIfNew tab content link).state.shared.queue = h.shared.queue := by
  unfold createIfNew create?
  split
  · rfl
  · next heq =>
    split at heq
    · cases heq
    · cases heq
      rfl

/-- An event that finds no tab to act on leaves the work that waits alone. -/
theorem queue_step_of_quiet (build : Build) {h : Host σ} {ev : Event σ} (ne : ev ≠ .shutdown)
    (hd : ∀ d, h.deed? ev = some d → h.tabs.get? d.tab = none) :
    (h.step build ev).state.shared.queue = h.waitingBeside ev := by
  have missing : ∀ {tab : TabId} {op : Operation σ}, h.tabs.get? tab = none →
      (h.onTab tab op).state.shared.queue = h.shared.queue := by
    intro tab op hn
    rw [onTab_of_none hn]
    rfl
  have unhosted : ∀ {tab : TabId} {v : Violation} {op : Operation σ}, h.tabs.get? tab = none →
      (h.onHosted build tab v op).state.shared.queue = h.shared.queue := by
    intro tab v op hn
    rw [onHosted, if_neg (by simp [Table.contains, hn]), Outcome.state_violation]
  cases ev with
  | create => exact queue_createIfNew _ _ _ h
  | createOver => exact queue_createIfNew _ _ _ h
  | post | push | setClock | surfaces => rfl
  | runOne =>
    rw [step, runOne, waitingBeside]
    cases hr : h.takeTask? with
    | none => rfl
    | some r =>
      obtain ⟨task, h'⟩ := r
      have ht : h'.tabs.get? task.tab = none := by
        rw [(takeTask?_eq_some hr).1]
        exact hd { tab := task.tab, act := task.act, around := h'.shared } (deed?_runOne hr)
      exact congrArg (fun h => h.shared.queue) (runTask_of_none build task ht).1
  | flush => exact missing (hd _ rfl)
  | addBlocker => exact unhosted (hd _ rfl)
  | removeBlocker => exact unhosted (hd _ rfl)
  | destroy => exact unhosted (hd _ rfl)
  | hangUp => exact missing (hd _ rfl)
  | shutdown => exact absurd rfl ne

/-- An event takes the task out that it does, and may make new work. -/
theorem growsTo_step (build : Build) {h : Host σ} (hs : h.Sound) {ev : Event σ}
    (ne : ev ≠ .shutdown) :
    (h.waitingBeside ev).GrowsTo (h.step build ev).state.shared.queue := by
  cases stepCase build hs ev with
  | quiet _ deed => exact .of_eq (queue_step_of_quiet build ne deed)
  | created tab content link _ _ event _ state =>
    rw [state]
    rcases event with ⟨c, rfl⟩ | ⟨c, heard, rfl⟩ <;> exact .refl _
  | acted d t deed htab _ acts =>
    rw [acts.shared, ← queue_around deed]
    have sound : ({ tab := t, shared := d.around } : Seat σ).tab.Sound := (hs _ _ htab).1
    exact Seat.growsTo_act build d.act sound
  | shut event => exact absurd event ne

/-- The first envelope of a channel stays so beside an event, unless the event delivers it. -/
theorem first?_waitingBeside {h : Host σ} {p : Priority} {c : Channel} {e : Envelope}
    (hq : h.shared.queue.first? p c = some e) (ev : Event σ) :
    (h.waitingBeside ev).first? p c = some e ∨
      ∃ d, h.deed? ev = some d ∧ d.tab = e.tab ∧ d.act = .request e := by
  cases ev with
  | runOne =>
    have pulled : h.pullInbox.shared.queue.first? p c = some e :=
      (RunQueue.GrowsTo.deliver_all h.inbox h.shared.queue).first? hq
    rw [waitingBeside]
    cases hr : h.takeTask? with
    | none => exact Or.inl pulled
    | some r =>
      obtain ⟨r', hpop, rfl⟩ := Option.map_eq_some_iff.mp hr
      rcases RunQueue.first?_of_pop? hpop pulled with heq | later
      · refine Or.inr ⟨_, by rw [deed?, hr]; rfl, ?_, ?_⟩ <;> simp only [heq] <;> rfl
      · exact Or.inl later
  | _ => exact Or.inl hq

end Host

end TabHost
