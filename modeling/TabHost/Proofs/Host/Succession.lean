import TabHost.Proofs.Host.Delivery

/-!
# What a new tab is handed of old work

An envelope tells the id that it is for, but not which of the tabs that had the id. So when an
id is used again, the new tab is handed what waits for the id just then, in the order in which
it was posted, and only after that what is posted to the tab itself
(`Host.hands_over_what_waits`). Old work reaches no new tab where none of it waits, as when the
id is used again by a host without work; but work that waits is not dropped with the tab that
it was for (`Host.stale_work_reaches_newcomer`). The passes of a delete are: none waits for an
id without a tab.
-/

set_option linter.unusedSectionVars false

namespace TabHost

/-- The envelopes that are for an id. -/
def envelopesFor (tab : TabId) (es : List Envelope) : List Envelope :=
  es.filter fun e => e.tab = tab

theorem envelopesFor_append (tab : TabId) (es es' : List Envelope) :
    envelopesFor tab (es ++ es') = envelopesFor tab es ++ envelopesFor tab es' :=
  List.filter_append ..

theorem filter_envelopesFor (tab : TabId) (p : Priority) (es : List Envelope) :
    (envelopesFor tab es).filter (fun e => e.priority = p) =
      envelopesFor tab (es.filter fun e => e.priority = p) := by
  simp only [envelopesFor, List.filter_filter, Bool.and_comm]

/-- The envelope that is handled by an act. -/
def Act.envelope? : Act → Option Envelope
  | .request e => some e
  | _ => none

variable {σ : Type} [Content σ]

namespace Host

variable {h : Host σ} {tab : TabId} {ev : Event σ} {p : Priority}

/-- The envelopes of a priority that wait for an id. -/
def waitingFor (h : Host σ) (tab : TabId) (p : Priority) : List Envelope :=
  envelopesFor tab (h.envelopesAt p)

/-- The envelopes of a priority that the tab of an id handles in some events. -/
def handledIn (build : Build) (tab : TabId) (p : Priority) (evs : List (Event σ)) (h : Host σ) :
    List Envelope :=
  ((h.turnsOf build tab evs).filterMap fun x => x.act.envelope?).filter fun e => e.priority = p

/-! ## Tabs that are there -/

/-- A tab handles the envelope that is delivered, if it is for its id. -/
theorem envelopes_turnOf {t : Tab σ} (ht : h.tabs.get? tab = some t) (ev : Event σ) :
    ((h.turnOf tab ev).filterMap fun x => x.act.envelope?) =
      envelopesFor tab (envelopesOf (h.taskOf ev)) := by
  cases ev with
  | shutdown =>
    rw [turnOf_shutdown ht]
    rfl
  | runOne =>
    rw [turnOf_eq ht (by simp), deed?, taskOf]
    cases h.takeTask? with
    | none => rfl
    | some r =>
      obtain ⟨task, h'⟩ := r
      cases task with
      | deliver e =>
        by_cases hk : e.tab = tab <;>
          simp [hk, envelopesFor, envelopesOf, Task.envelope?, Task.tab, Task.act, Act.envelope?]
      | delete d =>
        by_cases hk : d.tab = tab <;>
          simp [hk, envelopesFor, envelopesOf, Task.envelope?, Task.tab, Task.act, Act.envelope?]
  | create | createOver | post | setClock | surfaces =>
    rw [turnOf_eq ht (by simp)]
    rfl
  | _ =>
    rw [turnOf_eq ht (by simp), deed?]
    dsimp only
    split <;> rfl

/-- A tab handles what is delivered for its id, up to its end. -/
theorem account_handledIn (build : Build) {evs : List (Event σ)} {h : Host σ} (hs : h.Sound)
    {t : Tab σ} (ht : h.tabs.get? tab = some t) (once : Untouched tab (h.runs build evs).trace)
    (p : Priority) :
    ∃ left, h.handledIn build tab p evs ++ left = envelopesFor tab (h.ranIn build p evs) ∧
      ((h.runs build evs).fault = none → (h.runs build evs).state.tabs.contains tab = true →
        left = []) := by
  induction evs generalizing h t with
  | nil => exact ⟨[], rfl, fun _ _ => rfl⟩
  | cons ev rest ih =>
    have turn := congrArg (List.filter fun e => e.priority = p) (envelopes_turnOf ht ev)
    rw [filter_envelopesFor] at turn
    rw [runs] at once ⊢
    rw [handledIn, turnsOf, ranIn, tasksIn]
    cases first : (h.step build ev).fault with
    | some f =>
      refine ⟨[], (List.append_nil _).trans turn, fun later => ?_⟩
      rw [Outcome.andThen_of_fault first] at later
      cases first.symm.trans later
    | none =>
      rw [Outcome.trace_andThen first] at once
      rw [Outcome.fault_andThen first, Outcome.state_andThen first]
      have once' := (untouched_append.mp once).2
      have hs' := sound_step build hs ev
      dsimp only
      rw [List.filterMap_append, List.filter_append, turn, envelopesOf_append, List.filter_append,
        envelopesFor_append]
      cases ht' : (h.step build ev).state.tabs.get? tab with
      | some t' =>
        obtain ⟨left, later, hosted⟩ := ih hs' ht' once'
        exact ⟨left, by rw [List.append_assoc]; exact congrArg _ later, hosted⟩
      | none =>
        rw [turnsOf_of_none build rest hs' ht' once']
        refine ⟨_, by rw [List.append_assoc]; rfl, fun _ hosted => ?_⟩
        rw [Table.contains, (absent_runs build rest hs' ht' once').2] at hosted
        cases hosted

/-- A tab handles what waits for its id, and then what is posted for it. -/
theorem account_waitingFor (build : Build) {evs : List (Event σ)} (hs : h.Sound)
    (hq : h.shared.queue.Placed) (running : .shutdown ∉ evs) {t : Tab σ}
    (ht : h.tabs.get? tab = some t) (once : Untouched tab (h.runs build evs).trace)
    (p : Priority) :
    ∃ left, h.handledIn build tab p evs ++ left =
        h.waitingFor tab p ++ envelopesFor tab (posted p evs) ∧
      ((h.runs build evs).fault = none → (h.runs build evs).state.tabs.contains tab = true →
        left = (h.runs build evs).state.waitingFor tab p) := by
  obtain ⟨unhandled, handled, hosted⟩ := account_handledIn build hs ht once p
  obtain ⟨left, account, waits⟩ := account_ranIn build hs hq running p
  refine ⟨unhandled ++ envelopesFor tab left, ?_, fun fault there => ?_⟩
  · rw [← List.append_assoc, handled, ← envelopesFor_append, account, envelopesFor_append]
    rfl
  · rw [hosted fault there, waits fault]
    rfl

/-! ## Tabs that are created -/

/-- A new tab was not there before, and its creation changes nothing about the work that
waits. -/
theorem hosted_of_created (build : Build) (hs : h.Sound) (ne : ev ≠ .shutdown)
    (created : .created tab ∈ (h.step build ev).trace) :
    h.tabs.get? tab = none ∧ (∃ t, (h.step build ev).state.tabs.get? tab = some t) ∧
      (h.step build ev).state.shared = h.shared ∧ (h.step build ev).state.inbox = h.inbox := by
  cases stepCase build hs ev with
  | quiet _ _ _ trace =>
    rw [trace] at created
    cases created
  | created new content link _ _ _ absent state =>
    rw [state] at created ⊢
    cases List.mem_singleton.mp created
    exact ⟨absent, ⟨_, Table.get?_insert_self _ _ _⟩, rfl, rfl⟩
  | acted d t _ htab _ acts =>
    obtain ⟨sound, name⟩ := hs _ _ htab
    rw [acts.trace] at created
    cases (Seat.own_act build d.act (s := { tab := t, shared := d.around }) sound name).2 _ created
  | shut event => exact absurd event ne

theorem waitingFor_of_created (build : Build) (hs : h.Sound) (ne : ev ≠ .shutdown)
    (created : .created tab ∈ (h.step build ev).trace) (p : Priority) :
    (h.step build ev).state.waitingFor tab p = h.waitingFor tab p := by
  obtain ⟨-, -, shared, inbox⟩ := hosted_of_created build hs ne created
  rw [waitingFor, envelopesAt, shared, inbox]
  rfl

/-- What is taken out without a tab of its id is dropped. -/
theorem dropped_of_absent (build : Build) {e : Envelope} {h' : Host σ}
    (due : h.takeTask? = some (.deliver e, h')) (gone : h.tabs.contains e.tab = false) :
    (h.step build .runOne).state = h' ∧ (h.step build .runOne).trace = [] := by
  have missing : h'.tabs.get? (Task.deliver e).tab = none := by
    rw [(takeTask?_eq_some due).1]
    exact Table.contains_eq_false_iff.mp gone
  rw [step, runOne, due]
  exact runTask_of_none build _ missing

/-- What becomes of the work for an id when a tab of the id is created. -/
structure HandsOver (build : Build) (tab : TabId) (before since : List (Event σ))
    (h₀ h₁ : Host σ) : Prop where
  /-- What was posted for the id was taken out before, up to some envelope, and the rest
  waits. -/
  waiting : ∀ p, envelopesFor tab (posted p before) =
    envelopesFor tab (h₀.ranIn build p before) ++ h₁.waitingFor tab p
  /-- What was taken out while there was no tab of the id was dropped. -/
  dropped : ∀ first rest e h', before = first ++ .runOne :: rest →
    (h₀.runs build first).state.takeTask? = some (.deliver e, h') → e.tab = tab →
    (h₀.runs build first).state.tabs.contains tab = false →
    ((h₀.runs build first).state.step build .runOne).state = h' ∧
      ((h₀.runs build first).state.step build .runOne).trace = []
  /-- No pass of a delete waits for the id. -/
  passes : ∀ p d, d.tab = tab → .delete d ∉ h₁.shared.queue.tasks p
  /-- The new tab is handed what waits first, and then what is posted since. -/
  handled : ∀ p, h₁.handledIn build tab p since <+:
    h₁.waitingFor tab p ++ envelopesFor tab (posted p since)
  /-- As long as the tab is there, it is spared nothing of it. -/
  all : (h₁.runs build since).fault = none →
    (h₁.runs build since).state.tabs.contains tab = true → ∀ p,
    h₁.handledIn build tab p since ++ (h₁.runs build since).state.waitingFor tab p =
      h₁.waitingFor tab p ++ envelopesFor tab (posted p since)
  /-- If nothing waits, the tab is handed nothing but what is posted since. -/
  fresh : ∀ p, h₁.waitingFor tab p = [] →
    envelopesFor tab (h₀.ranIn build p before) = envelopesFor tab (posted p before) ∧
      h₁.handledIn build tab p since <+: envelopesFor tab (posted p since)
  /-- So it is if the host had no work. -/
  idle : (h₀.runs build before).state.IsIdle → ∀ p, h₁.waitingFor tab p = []

/-- When a tab is created, whatever happened to the host before, it is handed what waits for its
id, and nothing else that was posted before. -/
theorem hands_over_what_waits (build : Build) (settings : Settings) (clock : Duration)
    (surfaces : Surfaces) {before since : List (Event σ)}
    (running : .shutdown ∉ before ++ ev :: since)
    (fault : ((new settings clock surfaces).runs build before).fault = none)
    (created : .created tab ∈
      (((new settings clock surfaces).runs build before).state.step build ev).trace)
    (once : Untouched tab
      ((((new settings clock surfaces).runs build before).state.step build ev).state.runs build
        since).trace) :
    (new settings clock surfaces).HandsOver build tab before since
      (((new settings clock surfaces).runs build before).state.step build ev).state := by
  have start := orderly_new (σ := σ) settings clock surfaces
  have placed₀ := placed_new (σ := σ) settings clock surfaces
  have placed := ((Reachable.new settings clock surfaces).runs fault).placed
  have empty := envelopesAt_new (σ := σ) settings clock surfaces
  generalize new settings clock surfaces = h₀ at *
  have running₀ : .shutdown ∉ before := fun hm => running (List.mem_append_left _ hm)
  have ne : ev ≠ .shutdown := fun h => running (by simp [h])
  have running₁ : .shutdown ∉ since := fun hm => running (by simp [hm])
  have past := orderly_runs build start running₀ fault
  have account := ranIn_append_waiting build start.sound placed₀ running₀ fault
  obtain ⟨absent, ⟨t, ht⟩, shared, -⟩ := hosted_of_created build past.sound ne created
  have sound₁ := sound_step build past.sound ev
  have placed₁ := placed_step build past.sound placed ev
  have same := waitingFor_of_created build past.sound ne created
  generalize ((h₀.runs build before).state.step build ev).state = h₁ at *
  have waiting : ∀ p, envelopesFor tab (posted p before) =
      envelopesFor tab (h₀.ranIn build p before) ++ h₁.waitingFor tab p := by
    intro p
    rw [same, waitingFor, ← envelopesFor_append, account, empty, List.nil_append]
  have handled := account_waitingFor build sound₁ placed₁ running₁ ht once
  refine ⟨waiting, ?_, ?_, ?_, ?_, ?_, ?_⟩
  · intro first rest e h' _ due hk gone
    exact dropped_of_absent build due (by rwa [hk])
  · intro p d hk hm
    rw [shared] at hm
    have stage := (past.order.of_mem hm).2
    rw [hk, stage?_of_none absent] at stage
    cases stage
  · intro p
    obtain ⟨left, account, -⟩ := handled p
    exact ⟨left, account⟩
  · intro fault' there p
    obtain ⟨left, account, waits⟩ := handled p
    rw [← waits fault' there]
    exact account
  · intro p none
    obtain ⟨left, account, -⟩ := handled p
    rw [none, List.nil_append] at account
    refine ⟨?_, ⟨left, account⟩⟩
    rw [waiting, none, List.append_nil]
  · intro idle p
    rw [same, waitingFor, envelopesAt_of_isIdle idle]
    rfl

/-- Work for a tab, at normal priority. -/
def oldWork : Envelope := { tab := { value := 7 }, request := .setActive true }

/-- Ends the tab at once, before that work. -/
def linkLost : Envelope :=
  { tab := { value := 7 }, priority := .input, request := .channelClosed }

/-- A tab that its work is posted to, and which is gone before the work is done. -/
def overtaken : List (Event Headless) :=
  [.create { value := 7 } {}, .post oldWork, .post linkLost, .runOne]

/-- Work for the tab that is created then. -/
def newWork : Envelope := { tab := { value := 7 }, request := .setActive false }

/-- The new tab is handed the work for the old one, and then its own. -/
theorem hands_over_what_waits_overtaken :
    ((((new {} .zero {}).runs .checked overtaken).state.step .checked
      (.create { value := 7 } {})).state.handledIn .checked { value := 7 } .normal
        [.post newWork, .runOne, .runOne]) = [oldWork, newWork] := by
  have running : .shutdown ∉ overtaken ++ .create { value := 7 } {} ::
    [.post newWork, .runOne, .runOne] := by simp [overtaken]
  have hands := hands_over_what_waits .checked {} .zero {} running (by rfl)
    List.mem_cons_self (by unfold Untouched; decide)
  exact (List.append_nil _).symm.trans (hands.all (by rfl) (by rfl) .normal)

/-- An envelope that was posted once, while there was a tab of its id, may yet be handled by
another tab of the id. -/
theorem stale_work_reaches_newcomer : ¬∀ (first later since : List (Event Headless))
    (ev : Event Headless) (e : Envelope),
    .post e ∉ first → .post e ∉ later → .post e ∉ since →
    ((new {} .zero {}).runs .checked (first ++ .post e :: later)).fault = none →
    ((new {} .zero {}).runs .checked first).state.tabs.contains e.tab = true →
    .created e.tab ∈
      (((new {} .zero {}).runs .checked (first ++ .post e :: later)).state.step .checked
        ev).trace →
    e ∉ (((new {} .zero {}).runs .checked (first ++ .post e :: later)).state.step .checked
      ev).state.handledIn .checked e.tab e.priority since := by
  intro claim
  have spared := claim [.create { value := 7 } {}] [.post linkLost, .runOne] [.runOne]
    (.create { value := 7 } {}) oldWork (by simp) (by simp [oldWork, linkLost]) (by simp)
    (by rfl) (by rfl) List.mem_cons_self
  exact spared List.mem_cons_self

end Host

end TabHost
