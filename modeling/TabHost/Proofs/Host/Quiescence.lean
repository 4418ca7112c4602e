import TabHost.Proofs.Host.Deletion
import TabHost.Proofs.Host.Fifo
import TabHost.Proofs.Host.Teardown

/-!
# A tab is deleted last

The first pass of a delete waits behind all that was queued at normal priority when the tab was
asked to be destroyed, and it is only done when nothing waits at input priority. So by then all
that was queued before is done, and all envelopes of input priority that were posted are
delivered (`Host.deleted_when_quiescent`). A tab that is to be destroyed does not get past the
first pass in any other way (`Host.bounce_of_runs`).
-/

set_option linter.unusedSectionVars false

namespace TabHost

/-- What stands before the first occurrence of an element stands before any. -/
theorem prefix_of_concat_prefix {α : Type} {xs ys zs : List α} {a : α} (hx : a ∉ xs)
    (h : xs ++ [a] <+: ys ++ a :: zs) : xs <+: ys := by
  have hxs : xs <+: ys ++ a :: zs := (List.prefix_append xs [a]).trans h
  rcases Nat.le_total xs.length ys.length with hle | hle
  · exact List.prefix_of_prefix_length_le hxs (List.prefix_append ys _) hle
  · obtain ⟨front, rfl⟩ := List.prefix_of_prefix_length_le (List.prefix_append ys _) hxs hle
    cases front with
    | nil => simp
    | cons b rest =>
      have here := (List.prefix_append_right_inj ys).mp hxs
      obtain ⟨rfl, -⟩ := List.cons_prefix_cons.mp here
      exact absurd (by simp) hx

variable {σ : Type} [Content σ]

namespace Host

variable {h h' : Host σ} {tab : TabId} {ev : Event σ} {t : Tab σ}

/-! ## The first pass -/

/-- A live tab is asked to be destroyed. -/
structure AcceptsDestroy (h : Host σ) (tab : TabId) (ev : Event σ) : Prop where
  live : h.isLive tab = true
  asks : ∃ d, h.deed? ev = some d ∧ d.tab = tab ∧ d.act.asksDestroy = true

/-- No pass waits for a live tab. -/
theorem not_mem_beside (hd : h.Timely { tab }) (live : h.isLive tab = true) (ev : Event σ)
    (p : Priority) : .delete { tab } ∉ (h.waitingBeside ev).tasks p := by
  obtain ⟨t, ht, hl⟩ := exists_of_isLive live
  have none : h.due p { tab } = 0 := (due_of_some ht).trans (DeletePass.dueAt_of_isLive hl)
  intro hm
  have pos : 0 < (h.waitingBeside ev).passes p { tab } :=
    List.countP_pos_iff.mpr ⟨_, hm, by simp [Task.isPass]⟩
  rcases hd.beside ev with ⟨-, -, -, count⟩ | ⟨-, count⟩
  · rw [count] at pos
    cases pos
  · rw [count, none] at pos
    cases pos

/-- What a destroy comes to that is accepted: the tab is to be destroyed, and the first pass
of its delete waits behind all. -/
theorem destroying_of_accepts (build : Build) (hs : h.Sound) (ha : h.AcceptsDestroy tab ev) :
    (h.step build ev).state.stage? tab = some .destroying ∧
      (h.step build ev).state.shared.queue = (h.waitingBeside ev).schedule { tab } := by
  obtain ⟨t, ht, hl⟩ := exists_of_isLive ha.live
  obtain ⟨d, hdeed, rfl, asks⟩ := ha.asks
  cases stepCase build hs ev with
  | quiet _ deed =>
    rw [deed d hdeed] at ht
    cases ht
  | created _ _ _ _ _ event =>
    rcases event with ⟨c, rfl⟩ | ⟨c, heard, rfl⟩ <;> cases hdeed
  | acted d' t' deed htab _ acts =>
    cases hdeed.symm.trans deed
    cases ht.symm.trans htab
    have around : d.around.queue = h.waitingBeside ev := queue_around deed
    cases Seat.progresses_act build d.act (s := { tab := t, shared := d.around })
      (hs _ _ ht).1 with
    | stays calm => exact absurd ((calm hl).1.symm.trans asks) (by simp)
    | asked _ _ state queue =>
      refine ⟨?_, ?_⟩
      · rcases acts.own with hown | ⟨-, hdel⟩
        · rw [stage?_of_some hown, state]
        · rw [state] at hdel
          cases hdel
      · rw [acts.shared, queue, around]
        exact congrArg (fun id => (h.waitingBeside ev).schedule { tab := id }) (hs _ _ ht).2.id
    | lost _ loses =>
      rw [Act.losesLink_of_asksDestroy asks] at loses
      cases loses
    | bounced act | finished act =>
      rw [act] at asks
      cases asks
  | shut event =>
    rw [event] at hdeed
    cases hdeed

/-- Every pass of a delete waits at its own priority. -/
def PassesPlaced (h : Host σ) : Prop := ∀ p d, .delete d ∈ h.shared.queue.tasks p → p = d.priority

theorem DeletesInOrder.placed (hd : h.DeletesInOrder) : h.PassesPlaced :=
  fun _ _ hm => (hd.of_mem hm).1

/-- A first pass that is done waited at normal priority, while nothing waited at input
priority. -/
theorem quiet_of_first (hp : h.PassesPlaced)
    (ht : h.takeTask? = some (.delete { tab }, h')) :
    h.pullInbox.shared.queue.tasks .input = [] ∧
      ∃ rest, h.pullInbox.shared.queue.tasks .normal = .delete { tab } :: rest := by
  obtain ⟨⟨task, r⟩, hpop, heq⟩ := Option.map_eq_some_iff.mp ht
  obtain rfl : task = .delete { tab } := congrArg Prod.fst heq
  have placed : .delete { tab } ∉ h.pullInbox.shared.queue.input := by
    intro hm
    have hm : .delete { tab } ∈ h.pullInbox.shared.queue.tasks .input := hm
    rw [tasks_pullInbox] at hm
    rcases List.mem_append.mp hm with hm | hm
    · exact absurd (hp _ _ hm) (by simp [DeletePass.priority])
    · obtain ⟨e, -, he⟩ := List.mem_map.mp hm
      cases he
  unfold RunQueue.pop? at hpop
  split at hpop
  · next hi =>
    cases hpop
    rw [hi] at placed
    exact absurd List.mem_cons_self placed
  · next hi hn =>
    cases hpop
    exact ⟨hi, _, hn⟩
  · cases hpop

/-- A tab that is to be destroyed stays so, until the first pass of its delete is done. Then it
awaits the second one. -/
theorem destroying_step (build : Build) (hs : h.Sound) (ne : ev ≠ .shutdown)
    (before : h.stage? tab = some .destroying) :
    (h.step build ev).state.stage? tab = some .destroying ∨
      (h.step build ev).state.stage? tab = some .awaitingSecondPass ∧
        ev = .runOne ∧ ∃ h', h.takeTask? = some (.delete { tab }, h') := by
  obtain ⟨t, ht, hstate⟩ := Option.map_eq_some_iff.mp before
  cases stepCase build hs ev with
  | quiet _ _ tabs => exact Or.inl (by rw [stage?, tabs, ← stage?, before])
  | created tab' content link _ _ _ new state =>
    have hne : tab ≠ tab' := by
      rintro rfl
      rw [new] at ht
      cases ht
    rw [state]
    exact Or.inl ((stage?_of_some ((Table.get?_insert_of_ne hne _ _).trans ht)).trans
      (congrArg some hstate))
  | acted d t' deed htab _ acts =>
    by_cases hk : tab = d.tab
    · subst hk
      cases ht.symm.trans htab
      have dead : t.state.isLive = false := by rw [hstate]; rfl
      -- the tab goes on being hosted, at whatever stage it is but the last
      have reached : ∀ {stage}, stage ≠ .deleted →
          (Seat.act build d.act { tab := t, shared := d.around }).state.tab.state = stage →
          (h.step build ev).state.stage? d.tab = some stage := by
        intro stage undeleted state
        rcases acts.own with hown | ⟨-, hdel⟩
        · rw [stage?_of_some hown, state]
        · exact absurd (state.symm.trans hdel) undeleted
      cases Seat.progresses_act build d.act (s := { tab := t, shared := d.around })
        (hs _ _ ht).1 with
      | stays _ _ state => exact Or.inl (reached (by simp) (state.trans hstate))
      | asked live => exact absurd (dead.symm.trans live) (by simp)
      | lost live => exact absurd (dead.symm.trans live) (by simp)
      | @bounced pass act ready _ state =>
        obtain ⟨event, name, h', taken⟩ := takeTask?_of_pass deed act
        obtain rfl : pass = { tab := d.tab } := by
          cases pass
          simp_all
        exact Or.inr ⟨reached (by simp) state, event, h', taken⟩
      | finished _ _ awaiting => exact absurd (hstate.symm.trans awaiting) (by simp)
    · refine Or.inl ?_
      rw [stage?_of_some ((acts.others tab hk).trans ht), hstate]
  | shut event => exact absurd event ne

/-- A first pass that is done finds no tab that goes on waiting for it. -/
theorem bounced_of_first (build : Build) (hs : h.Sound) (before : h.stage? tab = some .destroying)
    (taken : h.takeTask? = some (.delete { tab }, h')) :
    (h.step build .runOne).state.stage? tab ≠ some .destroying := by
  obtain ⟨t, ht, hstate⟩ := Option.map_eq_some_iff.mp before
  have deed : h.deed? .runOne = some { tab, act := .pass { tab }, around := h'.shared } :=
    deed?_runOne taken
  intro after
  obtain ⟨u, hu, kept⟩ := Option.map_eq_some_iff.mp after
  cases tabCase build hs hu with
  | spared _ _ other => exact other _ deed rfl
  | created _ _ _ new => cases ht.symm.trans new
  | acted d t' deed' _ ht' _ _ _ state =>
    cases deed.symm.trans deed'
    cases ht.symm.trans ht'
    rw [state] at kept
    cases Seat.progresses_act build (.pass { tab })
      (s := { tab := t, shared := h'.shared }) (hs tab t ht).1 with
    | stays _ unfit => exact unfit _ rfl hstate
    | asked _ asks => cases asks
    | lost _ loses => cases loses
    | bounced _ _ _ state => cases state.symm.trans kept
    | finished _ _ _ state => cases state.symm.trans kept

/-- A tab that was to be destroyed and is not so any more went through the first pass of its
delete, and before that none was done. -/
theorem first_bounce_of_runs (build : Build) {evs : List (Event σ)} {h : Host σ} (hs : h.Sound)
    (running : .shutdown ∉ evs) (fault : (h.runs build evs).fault = none)
    (before : h.stage? tab = some .destroying)
    (after : (h.runs build evs).state.stage? tab ≠ some .destroying) :
    ∃ first rest h', evs = first ++ .runOne :: rest ∧
      (h.runs build first).state.takeTask? = some (.delete { tab }, h') ∧
      ∀ p, .delete { tab } ∉ h.doneIn build p first := by
  induction evs generalizing h with
  | nil => exact absurd before after
  | cons ev rest ih =>
    have ne : ev ≠ .shutdown := fun h => running (h ▸ List.mem_cons_self)
    obtain ⟨first, later⟩ := Outcome.fault_andThen_eq_none_iff.mp fault
    rcases destroying_step build hs ne before with kept | ⟨-, rfl, h', taken⟩
    · rw [runs, Outcome.state_andThen first] at after
      obtain ⟨front, rest', h', rfl, taken, unbounced⟩ := ih (sound_step build hs ev)
        (fun h => running (List.mem_cons_of_mem _ h)) later kept after
      refine ⟨ev :: front, rest', h', rfl, ?_, fun p hm => ?_⟩
      · rw [runs, Outcome.state_andThen first]
        exact taken
      · rcases List.mem_append.mp hm with hm | hm
        · obtain ⟨rfl, h', taken⟩ := taken_of_mem_doneAt hm
          exact bounced_of_first build hs before taken kept
        · exact unbounced p hm
    · exact ⟨[], rest, h', rfl, taken, fun _ => List.not_mem_nil⟩

theorem bounce_of_runs (build : Build) {evs : List (Event σ)} {h : Host σ} (hs : h.Sound)
    (running : .shutdown ∉ evs) (fault : (h.runs build evs).fault = none)
    (before : h.stage? tab = some .destroying)
    (after : (h.runs build evs).state.stage? tab ≠ some .destroying) :
    ∃ first rest h', evs = first ++ .runOne :: rest ∧
      (h.runs build first).state.takeTask? = some (.delete { tab }, h') := by
  obtain ⟨first, rest, h', split, taken, -⟩ :=
    first_bounce_of_runs build hs running fault before after
  exact ⟨first, rest, h', split, taken⟩

/-- A tab is not deleted while the first pass of its delete waits. -/
theorem stage?_ne_of_deleted (build : Build) (hs : h.Sound) (ne : ev ≠ .shutdown)
    (deleted : (h.step build ev).state.tabs.get? tab = none) :
    h.stage? tab ≠ some .destroying := by
  intro destroying
  have gone := stage?_of_none deleted
  rcases destroying_step build hs ne destroying with kept | ⟨awaiting, -⟩
  · cases gone.symm.trans kept
  · cases gone.symm.trans awaiting

/-! ## All that waits -/

/-- What was queued when a destroy was accepted, and the first pass behind it, is done or stays
before all that comes. -/
theorem queued_before_first (build : Build) (hs : h.Sound) (ha : h.AcceptsDestroy tab ev)
    {first : List (Event σ)} (running : .shutdown ∉ first)
    (fault : ((h.step build ev).state.runs build first).fault = none) (p : Priority) :
    (h.waitingBeside ev).tasks p ++ (if .normal = p then [.delete { tab }] else []) <+:
      (h.step build ev).state.doneIn build p first ++
        ((h.step build ev).state.runs build first).state.pullInbox.shared.queue.tasks p := by
  have behind := tasks_runs build (sound_step build hs ev) running fault p
  have queue := (destroying_of_accepts build hs ha).2
  rw [queue, RunQueue.schedule, RunQueue.tasks_push] at behind
  rw [tasks_pullInbox, ← List.append_assoc]
  exact behind.trans (List.prefix_append ..)

/-- All that was queued at input priority when a destroy was accepted is done when the first
pass is. -/
theorem input_before_first (build : Build) (hs : h.Sound) (ha : h.AcceptsDestroy tab ev)
    {first : List (Event σ)} (running : .shutdown ∉ first)
    (fault : ((h.step build ev).state.runs build first).fault = none)
    (quiet : ((h.step build ev).state.runs build first).state.pullInbox.shared.queue.tasks .input =
      []) :
    (h.waitingBeside ev).tasks .input <+: (h.step build ev).state.doneIn build .input first := by
  have waits := queued_before_first build hs ha running fault .input
  rw [quiet, List.append_nil] at waits
  exact (List.prefix_append ..).trans waits

/-- All that was queued when a destroy was accepted is done when the first pass is. -/
theorem tasks_before_first (build : Build) (ho : h.Orderly) (ha : h.AcceptsDestroy tab ev)
    {first : List (Event σ)} (ne : ev ≠ .shutdown) (running : .shutdown ∉ first)
    (fault : (h.step build ev).fault = none)
    (fault' : ((h.step build ev).state.runs build first).fault = none)
    (taken : ((h.step build ev).state.runs build first).state.takeTask? =
      some (.delete { tab }, h')) (p : Priority) :
    (h.waitingBeside ev).tasks p <+: (h.step build ev).state.doneIn build p first := by
  have ho' := orderly_runs build (orderly_step build ho ne fault) running fault'
  obtain ⟨none, rest, normal⟩ := quiet_of_first ho'.order.placed taken
  cases p with
  | input => exact input_before_first build ho.sound ha running fault' none
  | normal =>
    have waits := queued_before_first build ho.sound ha running fault' .normal
    rw [normal] at waits
    exact prefix_of_concat_prefix
      (not_mem_beside (ho.order.timely { tab }) ha.live ev .normal) waits

/-- All envelopes of input priority that were posted before the first pass of a delete are
delivered then. -/
theorem posted_before_first (build : Build) {evs : List (Event σ)} (ho : h.Orderly)
    (empty : h.envelopesAt .input = []) (running : .shutdown ∉ evs)
    (fault : (h.runs build evs).fault = none)
    (taken : (h.runs build evs).state.takeTask? = some (.delete { tab }, h')) :
    posted .input evs = envelopesOf (h.doneIn build .input evs) := by
  have account := envelopes_runs build ho.sound running fault .input
  have quiet := quiet_of_first (orderly_runs build ho running fault).order.placed taken
  rw [envelopesAt_eq (h.runs build evs).state, quiet.1, empty, List.nil_append] at account
  exact account.symm.trans (List.append_nil _)

theorem ends_split (build : Build) {before between : List (Event σ)} {ask : Event σ} {h : Host σ}
    (fault : (h.runs build (before ++ ask :: between)).fault = none) :
    (h.runs build before).fault = none ∧
      ((h.runs build before).state.step build ask).fault = none ∧
      (((h.runs build before).state.step build ask).state.runs build between).fault = none := by
  rw [runs_append] at fault
  obtain ⟨fault₁, later⟩ := Outcome.fault_andThen_eq_none_iff.mp fault
  exact ⟨fault₁, Outcome.fault_andThen_eq_none_iff.mp later⟩

theorem runs_split (build : Build) {before : List (Event σ)} {ask : Event σ} (h : Host σ)
    (fault : (h.runs build before).fault = none)
    (fault' : ((h.runs build before).state.step build ask).fault = none) (evs : List (Event σ)) :
    (h.runs build (before ++ ask :: evs)).state =
        (((h.runs build before).state.step build ask).state.runs build evs).state ∧
      (h.runs build (before ++ ask :: evs)).fault =
        (((h.runs build before).state.step build ask).state.runs build evs).fault := by
  rw [runs_append, Outcome.state_andThen fault, Outcome.fault_andThen fault, runs,
    Outcome.state_andThen fault', Outcome.fault_andThen fault']
  exact ⟨rfl, rfl⟩

/-- When a tab for which a destroy was accepted is there no more, the first pass of the delete is
done. All that was queued at either priority when the destroy was accepted had been done before
that pass, in this order, and all envelopes of input priority that were posted before that pass
had been delivered. -/
theorem deleted_when_quiescent (build : Build) (settings : Settings) (clock : Duration)
    (surfaces : Surfaces) {before between : List (Event σ)} {ask last : Event σ} {tab : TabId}
    (running : .shutdown ∉ before ++ ask :: between ++ [last])
    (fault : ((new settings clock surfaces).runs build (before ++ ask :: between)).fault = none)
    (accepted : ((new settings clock surfaces).runs build before).state.AcceptsDestroy tab ask)
    (deleted : (((new settings clock surfaces).runs build
      (before ++ ask :: between)).state.step build last).state.tabs.get? tab = none) :
    ∃ first rest h', between = first ++ .runOne :: rest ∧
      ((new settings clock surfaces).runs build (before ++ ask :: first)).state.takeTask? =
        some (.delete { tab }, h') ∧
      (∀ p, (((new settings clock surfaces).runs build before).state.waitingBeside ask).tasks p <+:
        (((new settings clock surfaces).runs build before).state.step build ask).state.doneIn
          build p first) ∧
      posted .input (before ++ ask :: first) =
        envelopesOf ((new settings clock surfaces).doneIn build .input
          (before ++ ask :: first)) := by
  have ho := orderly_new (σ := σ) settings clock surfaces
  have empty : (new settings clock surfaces : Host σ).envelopesAt .input = [] := rfl
  generalize new settings clock surfaces = h₀ at *
  simp only [List.mem_append, List.mem_cons, not_or] at running
  obtain ⟨⟨running, asks, running'⟩, lasts, -⟩ := running
  -- the run, in its parts
  obtain ⟨fault₁, fault₂, fault₃⟩ := ends_split build fault
  have parts := runs_split build h₀ fault₁ fault₂
  rw [(parts between).1] at deleted
  have ho₁ := orderly_runs build ho running fault₁
  have ho₂ := orderly_step build ho₁ (Ne.symm asks) fault₂
  have ho₃ := orderly_runs build ho₂ running' fault₃
  -- the tab was to be destroyed, and is not so any more
  obtain ⟨first, rest, h', rfl, taken⟩ := bounce_of_runs build ho₂.sound running' fault₃
    (destroying_of_accepts build ho₁.sound accepted).1
    (stage?_ne_of_deleted build ho₃.sound (Ne.symm lasts) deleted)
  rw [runs_append] at fault₃
  have fault₄ := (Outcome.fault_andThen_eq_none_iff.mp fault₃).1
  have running₄ : .shutdown ∉ first := fun h => running' (List.mem_append_left _ h)
  refine ⟨first, rest, h', rfl, (parts first).1 ▸ taken, fun p => ?_, ?_⟩
  · exact tasks_before_first build ho₁ accepted (Ne.symm asks) running₄ fault₂ fault₄ taken p
  · refine posted_before_first build ho empty ?_ ((parts first).2.trans fault₄)
      ((parts first).1 ▸ taken)
    simp [running, asks, running₄]

/-- An envelope for a tab that waits at either priority. -/
def activation (priority : Priority) (active : Bool) : Envelope :=
  { tab := { value := 8 }, priority := priority, request := .setActive active }

/-- Two tabs, and some work for the second one. -/
def crowded : List (Event Headless) :=
  [.create { value := 7 } {}, .create { value := 8 } {}, .post (activation .input true),
    .post (activation .normal false), .runOne]

/-- More work for the second tab, until the first pass of a delete is done. -/
def crowdedOn : List (Event Headless) :=
  [.post (activation .input false), .runOne, .runOne, .post (activation .input true), .runOne,
    .runOne]

/-- The first tab is deleted when all work for the second one is done. -/
theorem deleted_when_quiescent_crowded :
    ∃ first rest h', crowdedOn = first ++ .runOne :: rest ∧
      ((new {} .zero {}).runs .checked
        (crowded ++ .destroy { value := 7 } :: first)).state.takeTask? =
          some (.delete { tab := { value := 7 } }, h') ∧
      (∀ p, (((new {} .zero {}).runs .checked crowded).state.waitingBeside
          (.destroy { value := 7 })).tasks p <+:
        (((new {} .zero {}).runs .checked crowded).state.step .checked
          (.destroy { value := 7 })).state.doneIn .checked p first) ∧
      posted .input (crowded ++ .destroy { value := 7 } :: first) =
        envelopesOf ((new {} .zero {}).doneIn .checked .input
          (crowded ++ .destroy { value := 7 } :: first)) := by
  have accepted : ((new {} .zero {}).runs .checked crowded).state.AcceptsDestroy { value := 7 }
      (.destroy { value := 7 }) := ⟨by rfl, _, rfl, rfl, rfl⟩
  have running : .shutdown ∉ crowded ++ .destroy { value := 7 } :: crowdedOn ++ [.runOne] := by
    simp [crowded, crowdedOn]
  exact deleted_when_quiescent .checked {} .zero {} running (by rfl) accepted (by rfl)

end Host

end TabHost
