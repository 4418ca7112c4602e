import TabHost.Proofs.Host.Deletion
import TabHost.Proofs.Host.History
import TabHost.Proofs.Host.Teardown
import TabHost.Proofs.Tab.Violations

/-!
# The protocol, told by history

Whether an event breaks the protocol is decided by what the host keeps of its tabs
(`Host.breach?`). All of it can be told from what has happened: whether a tab of the id is there,
whether there ever was one, and what was done to it since it was created last (`Host.lifeOf`).
So told, there are seven ways to break the protocol (`Act.Offends`), and a checked build stops at
these and at nothing else that it calls a violation (`Host.judges_by_history`).
-/

set_option linter.unusedSectionVars false

namespace TabHost

/-- What an act is against the protocol, told by whether there is a tab of its id, whether one
was ever created, and what was done to it since it was created last. -/
inductive Act.Offends (hosted created : Prop) (life : List Act) : Act → Violation → Prop
  /-- The destroy of a tab was accepted before. -/
  | destroyedTwice {a} (there : hosted) (asks : a.asksDestroy = true)
      (accepted : ∃ b ∈ life, b.asksDestroy = true) : Offends hosted created life a .destroyedTwice
  /-- The tab is gone. -/
  | destroyedLate {e} (gone : ¬hosted) (once : created) (asks : e.request = .destroy) :
      Offends hosted created life (.request e) .destroyAfterDelete
  /-- There never was a tab. -/
  | unknown {e} (never : ¬created) (open' : e.request ≠ .channelClosed) :
      Offends hosted created life (.request e) (.unexpected e.request.name)
  | destroyUnhosted (gone : ¬hosted) : Offends hosted created life .destroy .destroyForUnknownTab
  | addUnhosted (gone : ¬hosted) :
      Offends hosted created life .addBlocker .blockerForUnknownTab
  | removeUnhosted (gone : ¬hosted) :
      Offends hosted created life .removeBlocker .blockerForUnknownTab
  /-- Every blocker that was added to the live tab was removed before. -/
  | unheld (there : hosted) (live : ∀ b ∈ life, b.asksDestroy = false)
      (even : life.countP Act.releases = life.countP Act.blocks) :
      Offends hosted created life .removeBlocker .notBlocked

variable {σ : Type} [Content σ]

namespace Host

variable {h h₀ : Host σ} {tab : TabId} {ev : Event σ} {d : Deed} {v : Violation}
  {life : List Act}

/-! ## What the host decides by -/

/-- What an act is against the protocol, if it is anything, where there is no tab of its id. -/
def absentBreach? (deleted : Bool) : Act → Option Violation
  | .request e =>
    match e.request, deleted with
    | .channelClosed, _ => none
    | .destroy, true => some .destroyAfterDelete
    | _, true => none
    | r, false => some (.unexpected r.name)
  | .destroy => some .destroyForUnknownTab
  | .addBlocker => some .blockerForUnknownTab
  | .removeBlocker => some .blockerForUnknownTab
  | _ => none

/-- What the act of a deed is against the protocol, if it is anything. -/
def breach? (h : Host σ) (d : Deed) : Option Violation :=
  match h.tabs.get? d.tab with
  | some t => t.breach? d.act
  | none => absentBreach? (decide (d.tab ∈ h.retired)) d.act

theorem ends_createIfNew (tab : TabId) (content : σ) (link : ParentLink) (h : Host σ) :
    (h.createIfNew tab content link).fault = none := by
  unfold createIfNew create?
  by_cases hc : h.tabs.contains tab = true
  · rw [if_pos hc]
    rfl
  · rw [if_neg hc]
    rfl

/-- Nothing stops an event that is no act. -/
theorem ends_step_of_no_deed (build : Build) (hs : h.Sound) (deed : h.deed? ev = none) :
    (h.step build ev).fault = none := by
  cases ev with
  | create | createOver => exact ends_createIfNew ..
  | post | setClock | surfaces => rfl
  | runOne =>
    have idle : h.takeTask? = none := Option.map_eq_none_iff.mp deed
    rw [step, runOne, idle]
    rfl
  | shutdown => exact (shuts_shutdown build hs).fault
  | _ => cases deed

/-- The act of a deed is done to its tab, if the tab is there. -/
theorem acts_of_deed (build : Build) (hs : h.Sound) (deed : h.deed? ev = some d) {t : Tab σ}
    (ht : h.tabs.get? d.tab = some t) :
    Acts build h d.tab d.act { tab := t, shared := d.around } (h.step build ev) := by
  cases stepCase build hs ev with
  | quiet _ none => cases (none d deed).symm.trans ht
  | created _ _ _ _ _ event => rcases event with ⟨c, rfl⟩ | ⟨c, heard, rfl⟩ <;> cases deed
  | acted d' t' deed' ht' _ acts =>
    cases deed.symm.trans deed'
    cases ht.symm.trans ht'
    exact acts
  | shut event =>
    subst event
    cases deed

theorem fault_dropUnrouted (e : Envelope) (h : Host σ) : (h.dropUnrouted .checked e).fault =
    (absentBreach? (decide (e.tab ∈ h.retired)) (.request e)).map (.violation e.tab) := by
  obtain ⟨tab, channel, priority, request⟩ := e
  unfold dropUnrouted absentBreach?
  dsimp only
  generalize decide (tab ∈ h.retired) = deleted
  cases request <;> cases deleted <;> rfl

theorem fault_runTask_of_none (task : Task) {h : Host σ} (ht : h.tabs.get? task.tab = none) :
    (h.runTask .checked task).fault =
      (absentBreach? (decide (task.tab ∈ h.retired)) task.act).map (.violation task.tab) := by
  cases task with
  | deliver e =>
    have absent : h.tabs.contains e.tab = false := Table.contains_eq_false_iff.mpr ht
    rw [runTask, if_neg (by simp [absent])]
    exact fault_dropUnrouted e h
  | delete d =>
    have absent : h.tabs.get? d.tab = none := ht
    have kept : h.isReapable d.tab = false := by
      rw [isReapable, absent]
      rfl
    rw [runTask, onTab_of_none absent, Outcome.ok_andThen, reap, kept]
    rfl

/-- An act without its tab is stopped by what it is against the protocol. -/
theorem fault_of_absent (deed : h.deed? ev = some d) (ht : h.tabs.get? d.tab = none) :
    (h.step .checked ev).fault =
      (absentBreach? (decide (d.tab ∈ h.retired)) d.act).map (.violation d.tab) := by
  have missing : ∀ {tab : TabId} {v : Violation} {op : Operation σ}, h.tabs.get? tab = none →
      (h.onHosted .checked tab v op).fault = some (.violation tab v) := by
    intro tab v op hn
    rw [onHosted, Table.contains, hn]
    rfl
  cases ev with
  | runOne =>
    obtain ⟨⟨task, h'⟩, due, rfl⟩ := Option.map_eq_some_iff.mp deed
    obtain ⟨r, -, heq⟩ := Option.map_eq_some_iff.mp due
    have same : h'.tabs = h.tabs ∧ h'.retired = h.retired := by
      cases heq
      exact ⟨rfl, rfl⟩
    rw [step, runOne, due, ← same.2]
    rw [← same.1] at ht
    exact fault_runTask_of_none task ht
  | flush | hangUp =>
    cases deed
    rw [step, onTab_of_none ht]
    rfl
  | addBlocker | removeBlocker | destroy =>
    cases deed
    exact missing ht
  | push =>
    cases deed
    rfl
  | _ => cases deed

/-- A checked build stops at what is against the protocol, and calls nothing else so. -/
theorem violation_step_iff (hs : h.Sound)
    (alive : ∀ tab t, h.tabs.get? tab = some t → t.state ≠ .deleted) :
    (h.step .checked ev).fault = some (.violation tab v) ↔
      ∃ d, h.deed? ev = some d ∧ d.tab = tab ∧ h.breach? d = some v := by
  cases deed : h.deed? ev with
  | none =>
    rw [ends_step_of_no_deed .checked hs deed]
    simp
  | some d =>
    simp only [Option.some.injEq, exists_eq_left']
    unfold breach?
    cases ht : h.tabs.get? d.tab with
    | none =>
      rw [fault_of_absent deed ht]
      cases absentBreach? (decide (d.tab ∈ h.retired)) d.act <;> simp
    | some t =>
      obtain ⟨sound, name⟩ := hs d.tab t ht
      rw [(acts_of_deed .checked hs deed ht).fault,
        Seat.violation_act_iff (s := { tab := t, shared := d.around }) sound
          (alive d.tab t ht), name.id]
      exact and_congr_left' eq_comm

/-- What is delivered without a tab of its id stops nothing if it tells of a lost link, or if the
id is on the roll; unless it is a destroy. -/
theorem ends_runOne_of_absent {e : Envelope} {h' : Host σ}
    (due : h.takeTask? = some (.deliver e, h')) (gone : h.tabs.contains e.tab = false)
    (inert : e.request = .channelClosed ∨ h.Enrolled e.tab) (calm : e.request ≠ .destroy) :
    (h.step .checked .runOne).fault = none := by
  have deed : h.deed? .runOne = some { tab := e.tab, act := .request e, around := h'.shared } :=
    deed?_runOne due
  rw [fault_of_absent deed (Table.contains_eq_false_iff.mp gone)]
  obtain ⟨tab, channel, priority, request⟩ := e
  rcases inert with rfl | there | deleted
  · rfl
  · rw [gone] at there
    cases there
  · simp only [deleted, decide_true]
    cases request with
    | destroy => exact absurd rfl calm
    | _ => rfl

/-- What comes late for a tab that there was stops nothing, unless it is a destroy. -/
theorem ends_step_of_late (ho : h.Orderly) {e : Envelope} {h' : Host σ}
    (due : h.takeTask? = some (.deliver e, h')) (once : h.Enrolled e.tab)
    (dead : h.isLive e.tab = false) (calm : e.request ≠ .destroy) :
    (h.step .checked .runOne).fault = none := by
  have deed : h.deed? .runOne = some { tab := e.tab, act := .request e, around := h'.shared } :=
    deed?_runOne due
  cases ht : h.tabs.get? e.tab with
  | some t =>
    rw [isLive_of_get? ht] at dead
    rw [(acts_of_deed .checked ho.sound deed ht).fault]
    refine Seat.ends_act_of_dying .checked dead ((ho.sound e.tab t ht).1.tornDown dead)
      (ho.order.ne_deleted ht) ?_
    obtain ⟨tab, channel, priority, request⟩ := e
    cases request with
    | destroy => exact absurd rfl calm
    | _ => rfl
  | none =>
    exact ends_runOne_of_absent due (Table.contains_eq_false_iff.mpr ht) (Or.inr once) calm

/-! ## What was done to a tab -/

/-- What was done to a tab since it was created last, once an event has happened. -/
def lived (build : Build) (tab : TabId) (ev : Event σ) (h : Host σ) (life : List Act) : List Act :=
  if (h.step build ev).trace.any (Effect.creates tab) then []
  else life ++ (h.turnOf tab ev).map Turn.act

/-- What was done to a tab since it was created last, once some events have happened. -/
def lifeOf (build : Build) (tab : TabId) : List (Event σ) → Host σ → List Act → List Act
  | [], _, life => life
  | ev :: rest, h, life =>
    lifeOf build tab rest (h.step build ev).state (h.lived build tab ev life)

/-- What the tab of an id has come to by what was done to it, while a checked build does not
stop. -/
structure Lived (h : Host σ) (tab : TabId) (life : List Act) : Prop where
  once : life.countP Act.asksDestroy ≤ 1
  /-- No destroy of a live tab was accepted. -/
  live : ∀ t, h.tabs.get? tab = some t → t.state.isLive = true →
    life.countP Act.asksDestroy = 0 ∧
      t.gate.blockers.toNat + life.countP Act.releases = life.countP Act.blocks
  /-- The destroy of any other tab that is there was. -/
  dying : ∀ t, h.tabs.get? tab = some t → t.state.isLive = false →
    life.countP Act.asksDestroy = 1

theorem lived_new (settings : Settings) (clock : Duration) (surfaces : Surfaces) (tab : TabId) :
    (new settings clock surfaces : Host σ).Lived tab [] := by
  refine ⟨Nat.zero_le 1, fun t ht => ?_, fun t ht => ?_⟩ <;> cases ht

theorem Lived.isLive_iff (hl : h.Lived tab life) : h.isLive tab = true ↔
    h.tabs.contains tab = true ∧ ∀ a ∈ life, a.asksDestroy = false := by
  cases ht : h.tabs.get? tab with
  | none =>
    rw [isLive_of_none ht, Table.contains, ht]
    simp
  | some t =>
    rw [isLive_of_get? ht, Table.contains, ht]
    simp only [Option.isSome_some, true_and, ← Bool.not_eq_true, ← List.countP_eq_zero]
    cases live : t.state.isLive with
    | true => simp [hl.live t ht live]
    | false => simp [hl.dying t ht live]

/-- What does not concern a tab adds nothing to its life. -/
theorem turnOf_of_spared (ne : ev ≠ .shutdown)
    (hd : ∀ d, h.deed? ev = some d → d.tab = tab → h.tabs.get? tab = none) :
    h.turnOf tab ev = [] := by
  cases ht : h.tabs.get? tab with
  | none => exact turnOf_of_none ht ev
  | some t =>
    rw [turnOf_eq ht ne]
    split
    · rfl
    · next d deed =>
      refine if_neg fun hk => ?_
      cases (hd d deed hk).symm.trans ht

theorem Lived.spared (hl : h.Lived tab life) (ne : ev ≠ .shutdown)
    (hd : ∀ d, h.deed? ev = some d → d.tab = tab → h.tabs.get? tab = none)
    (old : (h.step .checked ev).trace.any (Effect.creates tab) = false)
    (same : (h.step .checked ev).state.tabs.get? tab = h.tabs.get? tab) :
    (h.step .checked ev).state.Lived tab (h.lived .checked tab ev life) := by
  rw [lived, old, turnOf_of_spared ne hd]
  simp only [Bool.false_eq_true, if_false, List.map_nil, List.append_nil]
  exact ⟨hl.once, fun t ht => hl.live t (same ▸ ht), fun t ht => hl.dying t (same ▸ ht)⟩

/-- A tab that is being torn down accepts no other destroy. -/
theorem unasked_of_dying {t : Tab σ} {a : Act} {around : Shared}
    (hf : (Seat.act .checked a { tab := t, shared := around }).fault = none)
    (dead : t.state.isLive = false) : a.asksDestroy = false := by
  refine Bool.eq_false_iff.mpr fun asks => ?_
  have breach : t.breach? a = some .destroyedTwice := by simp [Tab.breach?, dead, asks]
  rw [Seat.act_of_breach? .checked (s := { tab := t, shared := around }) breach] at hf
  cases hf

/-- What an act makes of the tab that it is done to. -/
theorem Lived.acted (hl : h.Lived tab life) {t : Tab σ} (ht : h.tabs.get? tab = some t)
    (sound : t.Sound) {a : Act} (undropped : a ≠ .drop) {around : Shared}
    (hf : (Seat.act .checked a { tab := t, shared := around }).fault = none) {h' : Host σ}
    (alive : ∀ t, h'.tabs.get? tab = some t → t.state ≠ .deleted)
    (own : ∀ t', h'.tabs.get? tab = some t' →
      t' = (Seat.act .checked a { tab := t, shared := around }).state.tab) :
    h'.Lived tab (life ++ [a]) := by
  have calm : t.state.isLive = false → a.asksDestroy = false := unasked_of_dying hf
  have count : ∀ p : Act → Bool, (life ++ [a]).countP p = life.countP p + (p a).toNat := by
    intro p
    cases hp : p a <;> simp [List.countP_append, hp]
  have progresses := Seat.progresses_act .checked a (s := { tab := t, shared := around }) sound
  refine ⟨?_, fun t' ht' live' => ?_, fun t' ht' dead' => ?_⟩
  · rw [count]
    cases live : t.state.isLive with
    | true =>
      rw [(hl.live t ht live).1]
      cases a.asksDestroy <;> decide
    | false =>
      rw [hl.dying t ht live, calm live]
      decide
  · -- only a live tab stays live, and only if it is not torn down
    rw [own t' ht'] at live' ⊢
    cases progresses with
    | stays quiet _ state =>
      have live : t.state.isLive = true := state ▸ live'
      obtain ⟨unasked, unlost⟩ := quiet live
      have tears : a.tearsDown = false := by
        rw [Act.tearsDown_eq undropped, unasked, unlost]
        rfl
      obtain ⟨none, blockers⟩ := hl.live t ht live
      have step := Seat.blockers_act (s := { tab := t, shared := around }) live tears hf
      refine ⟨by rw [count, none, unasked]; rfl, ?_⟩
      dsimp only at step
      rw [count, count]
      omega
    | asked _ _ state => simp [state, Lifecycle.isLive] at live'
    | lost _ _ state => simp [state, Lifecycle.isLive] at live'
    | bounced _ _ _ state => simp [state, Lifecycle.isLive] at live'
    | finished _ _ _ state => simp [state, Lifecycle.isLive] at live'
  · have undeleted := alive t' ht'
    rw [own t' ht'] at dead' undeleted
    rw [count]
    cases progresses with
    | stays _ _ state =>
      have dead : t.state.isLive = false := state ▸ dead'
      rw [hl.dying t ht dead, calm dead]
      rfl
    | asked live asks =>
      rw [(hl.live t ht live).1, asks]
      rfl
    | lost _ _ state => exact absurd state undeleted
    | bounced act _ before =>
      have dead : t.state.isLive = false := by
        rw [show t.state = .destroying from before]
        rfl
      rw [hl.dying t ht dead, calm dead]
      rfl
    | finished _ _ _ state => exact absurd state undeleted

theorem lived_step (ho : h.Orderly) (hl : h.Lived tab life) (ne : ev ≠ .shutdown)
    (fault : (h.step .checked ev).fault = none) :
    (h.step .checked ev).state.Lived tab (h.lived .checked tab ev life) := by
  have alive : ∀ t, (h.step .checked ev).state.tabs.get? tab = some t → t.state ≠ .deleted := by
    exact fun t ht => (orderly_step .checked ho ne fault).order.ne_deleted ht
  cases stepCase .checked ho.sound ev with
  | quiet _ deed tabs trace =>
    exact hl.spared ne (fun d hd hk => hk ▸ deed d hd) (by rw [trace]; rfl) (by rw [tabs])
  | created new content link _ _ event none state =>
    by_cases hk : tab = new
    · subst hk
      have born : (h.step .checked ev).trace.any (Effect.creates tab) = true := by
        rw [state]
        simp [Outcome.emit, Effect.creates]
      rw [lived, born, if_pos rfl, state]
      refine ⟨Nat.zero_le 1, fun t ht _ => ?_, fun t ht dead => ?_⟩
      · cases (Table.get?_insert_self _ _ _).symm.trans ht
        exact ⟨rfl, rfl⟩
      · cases (Table.get?_insert_self _ _ _).symm.trans ht
        cases dead
    · refine hl.spared ne (fun d hd => ?_) ?_ ?_
      · rcases event with ⟨c, rfl⟩ | ⟨c, heard, rfl⟩ <;> cases hd
      · rw [state]
        simp [Outcome.emit, Effect.creates, Ne.symm hk]
      · rw [state]
        exact Table.get?_insert_of_ne hk _ _
  | acted d t deed htab _ acts =>
    obtain ⟨sound, name⟩ := ho.sound d.tab t htab
    have old : (h.step .checked ev).trace.any (Effect.creates tab) = false := by
      refine List.any_eq_false.mpr fun e he hc => ?_
      rw [acts.trace] at he
      have own := (Seat.own_act .checked d.act (s := { tab := t, shared := d.around }) sound
        name).2 e he
      cases e with
      | created => cases own
      | call | sent => cases hc
    by_cases hk : d.tab = tab
    · subst hk
      have turn : h.turnOf d.tab ev = [{ around := d.around, act := d.act }] := by
        rw [turnOf_eq htab ne, deed]
        exact if_pos rfl
      rw [lived, old, turn]
      refine hl.acted htab sound (act_ne_drop deed) (acts.fault ▸ fault) alive fun t' ht' => ?_
      rcases acts.own with own | ⟨gone, -⟩
      · exact Option.some.inj (ht'.symm.trans own)
      · cases gone.symm.trans ht'
    · refine hl.spared ne (fun d' deed' hk' => ?_) old (acts.others tab (Ne.symm hk))
      cases deed.symm.trans deed'
      exact absurd hk' hk
  | shut event => exact absurd event ne

theorem lived_runs {evs : List (Event σ)} (ho : h.Orderly) (hl : h.Lived tab life)
    (running : .shutdown ∉ evs) (fault : (h.runs .checked evs).fault = none) :
    (h.runs .checked evs).state.Lived tab (h.lifeOf .checked tab evs life) := by
  induction evs generalizing h life with
  | nil => exact hl
  | cons ev rest ih =>
    have ne : ev ≠ .shutdown := fun h => running (h ▸ List.mem_cons_self)
    obtain ⟨first, later⟩ := Outcome.fault_andThen_eq_none_iff.mp fault
    rw [runs, Outcome.state_andThen first, lifeOf]
    exact ih (orderly_step .checked ho ne first) (lived_step ho hl ne first)
      (fun h => running (List.mem_cons_of_mem _ h)) later

/-! ## What is against the protocol -/

theorem absentBreach?_eq_some_iff (life : List Act) {deleted : Bool} {a : Act} :
    absentBreach? deleted a = some v ↔ Act.Offends False (deleted = true) life a v := by
  constructor
  · intro hb
    cases a with
    | request e =>
      obtain ⟨tab, channel, priority, request⟩ := e
      cases deleted with
      | true =>
        cases request with
        | destroy =>
          cases hb
          exact .destroyedLate id rfl rfl
        | _ => cases hb
      | false =>
        cases request with
        | channelClosed => cases hb
        | _ =>
          cases hb
          exact .unknown (by simp) (by simp)
    | destroy => cases hb; exact .destroyUnhosted id
    | addBlocker => cases hb; exact .addUnhosted id
    | removeBlocker => cases hb; exact .removeUnhosted id
    | _ => cases hb
  · intro ho
    cases ho with
    | destroyedTwice there => exact there.elim
    | @destroyedLate e _ once asks =>
      obtain ⟨tab, channel, priority, request⟩ := e
      cases asks
      rw [once]
      rfl
    | @unknown e never open' =>
      obtain ⟨tab, channel, priority, request⟩ := e
      rw [Bool.not_eq_true] at never
      rw [never]
      cases request with
      | channelClosed => exact absurd rfl open'
      | _ => rfl
    | destroyUnhosted | addUnhosted | removeUnhosted => rfl
    | unheld there => exact there.elim

theorem Lived.breach?_eq_some_iff (hl : h.Lived tab life) {t : Tab σ}
    (ht : h.tabs.get? tab = some t) {a : Act} :
    t.breach? a = some v ↔ Act.Offends True True life a v := by
  constructor
  · intro hb
    unfold Tab.breach? at hb
    split at hb
    · next live =>
      obtain ⟨none, blockers⟩ := hl.live t ht live
      cases a with
      | removeBlocker =>
        dsimp only at hb
        split at hb
        · next free =>
          cases hb
          refine .unheld trivial (fun b hb => ?_) ?_
          · simpa using List.countP_eq_zero.mp none b hb
          · rw [← blockers, free]
            exact (Nat.zero_add _).symm
        · cases hb
      | _ => cases hb
    · next dead =>
      split at hb
      · next asks =>
        cases hb
        have one := hl.dying t ht (by simpa using dead)
        exact .destroyedTwice trivial asks (List.countP_pos_iff.mp (by omega))
      · cases hb
  · intro ho
    cases ho with
    | destroyedTwice _ asks accepted =>
      have dead : t.state.isLive = false := by
        refine Bool.eq_false_iff.mpr fun live => ?_
        have pos := List.countP_pos_iff.mpr accepted
        have none := (hl.live t ht live).1
        omega
      simp [Tab.breach?, dead, asks]
    | unheld _ undestroyed even =>
      have live : t.state.isLive = true := by
        rw [← Bool.not_eq_false]
        intro dead
        have one := hl.dying t ht dead
        obtain ⟨b, hb, asks⟩ := List.countP_pos_iff.mp (one ▸ Nat.one_pos)
        exact absurd (undestroyed b hb) (by simp [asks])
      have free : t.gate.blockers = 0 := by
        have blockers := (hl.live t ht live).2
        refine UInt32.toNat.inj ?_
        show t.gate.blockers.toNat = 0
        omega
      simp [Tab.breach?, live, free]
    | destroyedLate gone | destroyUnhosted gone | addUnhosted gone | removeUnhosted gone =>
      exact absurd trivial gone
    | unknown never => exact absurd trivial never

/-- What the host decides by is what has happened. -/
theorem breach?_eq_some_iff {created : Prop} (hl : h.Lived d.tab life)
    (roll : h.Enrolled d.tab ↔ created) : h.breach? d = some v ↔
      Act.Offends (h.tabs.contains d.tab = true) created life d.act v := by
  rw [← propext roll, breach?, Enrolled, Table.contains]
  cases ht : h.tabs.get? d.tab with
  | some t =>
    simp only [Option.isSome_some, true_or]
    exact hl.breach?_eq_some_iff ht
  | none =>
    have deleted : (d.tab ∈ h.retired) = (decide (d.tab ∈ h.retired) = true) := by simp
    simp only [Option.isSome_none, Bool.false_eq_true, false_or]
    rw [absentBreach?_eq_some_iff life, ← deleted]

/-- What an act is against the protocol, once some events have happened. -/
def OffendsAfter (evs : List (Event σ)) (h₀ : Host σ) (d : Deed) (v : Violation) : Prop :=
  Act.Offends ((h₀.runs .checked evs).state.tabs.contains d.tab = true)
    (.created d.tab ∈ (h₀.runs .checked evs).trace) (h₀.lifeOf .checked d.tab evs []) d.act v

/-- A checked build stops at what is against the protocol after some events. -/
theorem violation_after_iff (start : h₀.Orderly) (lived : ∀ tab, h₀.Lived tab [])
    (unused : ∀ tab, ¬h₀.Enrolled tab) {evs : List (Event σ)} (running : .shutdown ∉ evs)
    (fault : (h₀.runs .checked evs).fault = none) (ev : Event σ) (tab : TabId) (v : Violation) :
    ((h₀.runs .checked evs).state.step .checked ev).fault = some (.violation tab v) ↔
      ∃ d, (h₀.runs .checked evs).state.deed? ev = some d ∧ d.tab = tab ∧
        h₀.OffendsAfter evs d v := by
  have past := orderly_runs .checked start running fault
  rw [violation_step_iff past.sound fun _ _ ht => past.order.ne_deleted ht]
  refine exists_congr fun d => and_congr_right' (and_congr_right' ?_)
  exact breach?_eq_some_iff (lived_runs start (lived d.tab) running fault)
    (enrolled_runs_iff .checked start.sound running fault (unused d.tab))

/-- How a checked build holds the parent of its tabs to the protocol, once some events have
happened. -/
structure JudgesByHistory (evs : List (Event σ)) (h₀ : Host σ) : Prop where
  /-- It stops at what is against the protocol, and calls nothing else so. -/
  event : ∀ ev tab v,
    ((h₀.runs .checked evs).state.step .checked ev).fault = some (.violation tab v) ↔
      ∃ d, (h₀.runs .checked evs).state.deed? ev = some d ∧ d.tab = tab ∧ h₀.OffendsAfter evs d v
  /-- In a run until idle, it stops at the first such event. -/
  untilIdle : ∀ tab v,
    ((h₀.runs .checked evs).state.start .checked).fault = some (.violation tab v) ↔
      ∃ first ev rest d, (h₀.runs .checked evs).state.idleEvents .checked = first ++ ev :: rest ∧
        (h₀.runs .checked (evs ++ first)).fault = none ∧
        (h₀.runs .checked (evs ++ first)).state.deed? ev = some d ∧ d.tab = tab ∧
        h₀.OffendsAfter (evs ++ first) d v
  /-- A tab is live just if it is there and its destroy was not accepted. -/
  live : ∀ tab, (h₀.runs .checked evs).state.isLive tab = true ↔
    (h₀.runs .checked evs).state.tabs.contains tab = true ∧
      ∀ a ∈ h₀.lifeOf .checked tab evs [], a.asksDestroy = false
  /-- A destroy is accepted once at most. -/
  once : ∀ tab, (h₀.lifeOf .checked tab evs []).countP Act.asksDestroy ≤ 1
  /-- What comes late for a tab that there was stops nothing, unless it is a destroy. -/
  late : ∀ e h', (h₀.runs .checked evs).state.takeTask? = some (.deliver e, h') →
    .created e.tab ∈ (h₀.runs .checked evs).trace →
    (h₀.runs .checked evs).state.isLive e.tab = false → e.request ≠ .destroy →
    ((h₀.runs .checked evs).state.step .checked .runOne).fault = none

/-- A checked build judges by what has happened, whatever that was. -/
theorem judges_by_history (settings : Settings) (clock : Duration) (surfaces : Surfaces)
    {evs : List (Event σ)} (running : .shutdown ∉ evs)
    (fault : ((new settings clock surfaces).runs .checked evs).fault = none) :
    (new settings clock surfaces).JudgesByHistory evs := by
  have start := orderly_new (σ := σ) settings clock surfaces
  have lived := lived_new (σ := σ) settings clock surfaces
  have unused := not_enrolled_new (σ := σ) settings clock surfaces
  generalize new settings clock surfaces = h₀ at *
  have past := orderly_runs .checked start running fault
  refine ⟨violation_after_iff start lived unused running fault, fun tab v => ?_,
    fun tab => (lived_runs start (lived tab) running fault).isLive_iff,
    fun tab => (lived_runs start (lived tab) running fault).once,
    fun e h' due once => ends_step_of_late past due
      (enrolled_runs .checked start.sound running (Or.inr once))⟩
  rw [start_eq_runs, fault_runs_eq_some_iff]
  refine exists_congr fun first => exists_congr fun ev => exists_congr fun rest => ?_
  rw [runs_append, Outcome.fault_andThen fault, Outcome.state_andThen fault, exists_and_left,
    exists_and_left]
  refine and_congr_right fun split => and_congr_right fun ends => ?_
  have running' : .shutdown ∉ evs ++ first := by
    have idle := shutdown_not_mem_idleEvents .checked (h₀.runs .checked evs).state
    rw [split] at idle
    exact fun hm => (List.mem_append.mp hm).elim running fun hm => idle (List.mem_append_left _ hm)
  have ends' : (h₀.runs .checked (evs ++ first)).fault = none := by
    rw [runs_append, Outcome.fault_andThen fault]
    exact ends
  have here := violation_after_iff start lived unused running' ends' ev tab v
  rwa [runs_append, Outcome.state_andThen fault] at here

/-- A tab whose only blocker was removed again. -/
def unblocked : List (Event Headless) :=
  [.create { value := 7 } {}, .addBlocker { value := 7 }, .removeBlocker { value := 7 }]

/-- Its destroy, up to its deletion, and another one that is posted behind. -/
def destroyedOnce : List (Event Headless) :=
  [.destroy { value := 7 }, .runOne, .runOne,
    .post { tab := { value := 7 }, request := .destroy }]

/-- The blocker is not removed twice, nor the tab destroyed twice. -/
theorem judges_by_history_unblocked :
    (((new {} .zero {}).runs .checked unblocked).state.step .checked
      (.removeBlocker { value := 7 })).fault = some (.violation { value := 7 } .notBlocked) ∧
    (((new {} .zero {}).runs .checked (unblocked ++ destroyedOnce)).state.step .checked
      .runOne).fault = some (.violation { value := 7 } .destroyAfterDelete) := by
  have running : .shutdown ∉ unblocked ++ destroyedOnce := by simp [unblocked, destroyedOnce]
  have before : .shutdown ∉ unblocked := fun hm => running (List.mem_append_left _ hm)
  refine ⟨?_, ?_⟩
  · have judges := judges_by_history {} .zero {} before (by rfl)
    exact (judges.event _ _ _).mpr ⟨_, rfl, rfl, .unheld (by rfl) (by decide) (by decide)⟩
  · have judges := judges_by_history {} .zero {} running (by rfl)
    exact (judges.event _ _ _).mpr
      ⟨_, rfl, rfl, .destroyedLate (by decide) List.mem_cons_self rfl⟩

end Host

end TabHost
