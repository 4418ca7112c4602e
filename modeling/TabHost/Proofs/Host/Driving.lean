import TabHost.Proofs.Host.Settling

/-!
# Hosts that wait for envelopes

A host that runs until its last tab is gone works until it is idle, and then waits for the inbox:
the first envelope is taken out by itself and queued, and the others while the host works. When it
is asked to go on, it goes round this loop until there is no tab left or nothing in the inbox
(`Host.Polled`).

Whatever is posted while it waits, it comes to the same as a run until idle (`Host.polled_iff`):
what is taken out first is queued first anyway, and a host at rest has nothing else to do. So it can
be driven by hand (`Host.drives_as_by_hand`), batch after batch (`Host.byHand`), up to the first
time that no tab is left.
-/

set_option linter.unusedSectionVars false

namespace TabHost

variable {σ : Type} [Content σ]

namespace Host

variable {build : Build} {h : Host σ} {o o' : Outcome Effect (Poll × Host σ)}

/-! ## Going on -/

/-- Posts some envelopes. -/
def postAll (es : List Envelope) (h : Host σ) : Host σ := es.foldl (fun h e => h.post e) h

theorem postAll_eq (es : List Envelope) (h : Host σ) :
    h.postAll es = { h with inbox := h.inbox ++ es } := by
  induction es generalizing h with
  | nil =>
    rw [List.append_nil]
    rfl
  | cons e rest ih =>
    refine (ih (h.post e)).trans ?_
    simp [post]

theorem Sound.postAll (hs : h.Sound) (es : List Envelope) : (h.postAll es).Sound := by
  rw [postAll_eq]
  exact hs

theorem AtRest.inbox_postAll (hr : h.AtRest) (es : List Envelope) :
    (h.postAll es).inbox = es := by
  rw [postAll_eq, hr.inbox]
  rfl

/-- The host with an envelope queued that it waited for, and the rest left in the inbox. -/
def received (e : Envelope) (rest : List Envelope) (h : Host σ) : Host σ :=
  { h with
    inbox := rest
    shared := { h.shared with queue := h.shared.queue.deliver e } }

/-- An outcome with what the host says then. -/
def answered (o : Outcome Effect (Host σ)) : Outcome Effect (Poll × Host σ) :=
  o.map fun h => (h.poll, h)

/-- What becomes of a waiting host that is asked to go on, in however many rounds. -/
inductive Polled (build : Build) : Host σ → Outcome Effect (Poll × Host σ) → Prop
  | waits {h : Host σ} (empty : h.inbox = []) : Polled build h (.ok (.pending, h))
  | breaks {h : Host σ} {e : Envelope} {rest : List Envelope} {f : Fault}
      (inbox : h.inbox = e :: rest) (fault : ((h.received e rest).start build).fault = some f) :
      Polled build h (answered ((h.received e rest).start build))
  | ends {h : Host σ} {e : Envelope} {rest : List Envelope} (inbox : h.inbox = e :: rest)
      (fault : ((h.received e rest).start build).fault = none)
      (done : ((h.received e rest).start build).state.isDone = true) :
      Polled build h (answered ((h.received e rest).start build))
  | goesOn {h : Host σ} {e : Envelope} {rest : List Envelope}
      {o : Outcome Effect (Poll × Host σ)} (inbox : h.inbox = e :: rest)
      (fault : ((h.received e rest).start build).fault = none)
      (more : ((h.received e rest).start build).state.isDone = false)
      (later : Polled build ((h.received e rest).start build).state o) :
      Polled build h ((answered ((h.received e rest).start build)).andThen fun _ => o)

/-- The loop comes to one end only. -/
theorem Polled.unique (hp : Polled build h o) (hp' : Polled build h o') : o = o' := by
  induction hp generalizing o' with
  | waits empty =>
    cases hp' with
    | waits => rfl
    | breaks inbox | ends inbox | goesOn inbox => cases empty.symm.trans inbox
  | breaks inbox fault =>
    cases hp' with
    | waits empty => cases empty.symm.trans inbox
    | breaks inbox' =>
      cases inbox.symm.trans inbox'
      rfl
    | ends inbox' fault' | goesOn inbox' fault' =>
      cases inbox.symm.trans inbox'
      cases fault.symm.trans fault'
  | ends inbox fault done =>
    cases hp' with
    | waits empty => cases empty.symm.trans inbox
    | breaks inbox' fault' =>
      cases inbox.symm.trans inbox'
      cases fault.symm.trans fault'
    | ends inbox' =>
      cases inbox.symm.trans inbox'
      rfl
    | goesOn inbox' _ more =>
      cases inbox.symm.trans inbox'
      cases done.symm.trans more
  | goesOn inbox fault more _ ih =>
    cases hp' with
    | waits empty => cases empty.symm.trans inbox
    | breaks inbox' fault' =>
      cases inbox.symm.trans inbox'
      cases fault.symm.trans fault'
    | ends inbox' _ done =>
      cases inbox.symm.trans inbox'
      cases done.symm.trans more
    | goesOn inbox' _ _ later =>
      cases inbox.symm.trans inbox'
      rw [ih later]

/-- The envelope that is taken out first is the one that would be queued first anyway. -/
theorem start_received {e : Envelope} {rest : List Envelope} (inbox : h.inbox = e :: rest) :
    (h.received e rest).start build = h.start build := by
  have pulled : (h.received e rest).pullInbox = h.pullInbox := by
    rw [pullInbox, pullInbox, inbox]
    rfl
  have work : (h.received e rest).work = h.work := by rw [work, work, pulled]
  have due : (h.received e rest).takeTask? = h.takeTask? := by
    rw [takeTask?, takeTask?, pulled]
    rfl
  rw [start, start, runUntilIdle, runUntilIdle, work, runTasks, runTasks, due, pulled]

theorem AtRest.start (hr : h.AtRest) (build : Build) : h.start build = .ok h := by
  rw [Host.start, hr.runUntilIdle build]
  rfl

theorem atRest_start (hs : h.Sound) (hf : (h.start build).fault = none) :
    (h.start build).state.AtRest :=
  atRest_runUntilIdle hs hf

theorem sound_start (hs : h.Sound) (hf : (h.start build).fault = none) :
    (h.start build).state.Sound := by
  rw [start_eq_runs] at hf ⊢
  exact runs_preserves (P := Sound) (fun _ ev _ hs _ => sound_step build hs ev) hs hf

/-- What is posted to a host at rest is handled as by a run until idle. -/
theorem resume_postAll (hr : h.AtRest) (batch : List Envelope) :
    (h.postAll batch).resume build = (h.postAll batch).start build := by
  cases batch with
  | nil =>
    show h.resume build = h.start build
    rw [resume, hr.inbox, hr.start build]
  | cons e rest =>
    have inbox := hr.inbox_postAll (e :: rest)
    rw [← start_received inbox, resume, inbox]
    rfl

/-- A host at rest that waits goes on, after some envelopes were posted, as by a run until idle,
and then says whether a tab is left. -/
theorem polled_iff (hs : h.Sound) (hr : h.AtRest) (waiting : h.isDone = false)
    (batch : List Envelope) :
    Polled build (h.postAll batch) o ↔ o = answered ((h.postAll batch).start build) := by
  have polled : Polled build (h.postAll batch) (answered ((h.postAll batch).start build)) := by
    cases batch with
    | nil =>
      have idle : answered (h.start build) = .ok (.pending, h) := by
        rw [hr.start build]
        show Outcome.ok (h.poll, h) = _
        rw [poll, waiting]
        rfl
      show Polled build h (answered (h.start build))
      rw [idle]
      exact .waits hr.inbox
    | cons e rest =>
      have inbox := hr.inbox_postAll (e :: rest)
      have same : ((h.postAll (e :: rest)).received e rest).start build =
          (h.postAll (e :: rest)).start build := start_received inbox
      rw [← same]
      cases hf : ((h.postAll (e :: rest)).start build).fault with
      | some f => exact .breaks inbox (same ▸ hf)
      | none =>
        cases done : ((h.postAll (e :: rest)).start build).state.isDone with
        | true => exact .ends inbox (same ▸ hf) (same ▸ done)
        | false =>
          -- nothing is left in the inbox, so the next round waits
          have goesOn := Polled.goesOn inbox (same ▸ hf) (same ▸ done)
            (.waits (same ▸ (atRest_start (hs.postAll _) hf).inbox))
          have still : (answered (((h.postAll (e :: rest)).received e rest).start build)).andThen
              (fun _ => .ok (.pending, (((h.postAll (e :: rest)).received e rest).start
                build).state)) = answered (((h.postAll (e :: rest)).received e rest).start
                build) := by
            rw [same]
            simp [Outcome.andThen, answered, Outcome.map, hf, poll, done]
          rwa [still] at goesOn
  exact ⟨fun hp => hp.unique polled, fun heq => heq ▸ polled⟩

/-! ## By hand -/

/-- A batch of envelopes is posted, and the host works until it is idle. -/
def posting (batch : List Envelope) : List (Op σ) :=
  batch.map (fun e => .event (.post e)) ++ [.runUntilIdle]

/-- The host works until it is idle, and again with each of some batches of envelopes. -/
def byHand (batches : List (List Envelope)) : List (Op σ) :=
  .runUntilIdle :: batches.flatMap posting

/-- The batches that a waiting host is handed before no tab is left. -/
def heeded (build : Build) : List (List Envelope) → Host σ → List (List Envelope)
  | [], _ => []
  | batch :: rest, h =>
    if h.isDone then [] else batch :: heeded build rest ((h.postAll batch).start build).state

theorem performs_posting (build : Build) (batch : List Envelope) (ops : List (Op σ))
    (h : Host σ) : h.performs build (posting batch ++ ops) =
      ((h.postAll batch).start build).andThen (performs build ops) := by
  have posts : h.performs build (batch.map fun e => .event (.post e)) = .ok (h.postAll batch) := by
    induction batch generalizing h with
    | nil => rfl
    | cons e rest ih => exact ih (h.post e)
  rw [posting, List.append_assoc, performs_append, posts]
  rfl

/-! ## Batch after batch -/

theorem feed_of_fault (build : Build) {o : Outcome Effect (List Poll × Host σ)} {f : Fault}
    (hf : o.fault = some f) (batches : List (List Envelope)) : feed build batches o = o := by
  induction batches with
  | nil => rfl
  | cons batch rest ih =>
    rw [feed, Outcome.andThen_of_fault hf, ih]
    exact ite_self o

/-- What comes of the batches depends only on where the host stands. -/
theorem feed_eq_andThen (build : Build) (batches : List (List Envelope))
    {o : Outcome Effect (List Poll × Host σ)} (hf : o.fault = none) :
    feed build batches o = o.andThen fun s => feed build batches (.ok s) := by
  induction batches generalizing o with
  | nil => exact (Outcome.andThen_ok o).symm
  | cons batch rest ih =>
    cases done : o.state.2.isDone with
    | true =>
      have ignored : (fun s => feed build (batch :: rest) (.ok s)) o.state =
          Outcome.ok o.state := by
        simp only [feed, Outcome.state_ok, done, if_true]
      rw [feed, if_pos done, Outcome.andThen_congr ignored, Outcome.andThen_ok]
    | false =>
      have here : (fun s => feed build (batch :: rest) (.ok s)) o.state =
          feed build rest ((resume build (o.state.2.postAll batch)).map fun h =>
            (o.state.1 ++ [h.poll], h)) := by
        simp only [feed, Outcome.state_ok, done, Bool.false_eq_true, if_false,
          Outcome.ok_andThen]
        rfl
      rw [Outcome.andThen_congr (g := fun _ => feed build rest _) here, feed,
        if_neg (by simp [done])]
      cases later : (resume build (o.state.2.postAll batch)).fault with
      | some f =>
        have stopped : (o.andThen fun s => (resume build (s.2.postAll batch)).map fun h =>
            (s.1 ++ [h.poll], h)).fault = some f := by
          rw [Outcome.fault_andThen hf]
          exact later
        have stays := feed_of_fault build (o := (resume build (o.state.2.postAll batch)).map
          fun h => (o.state.1 ++ [h.poll], h)) later rest
        rw [stays]
        exact (feed_of_fault build stopped rest).trans (Outcome.andThen_congr rfl)
      | none =>
        have goesOn : (o.andThen fun s => (resume build (s.2.postAll batch)).map fun h =>
            (s.1 ++ [h.poll], h)).fault = none := by
          rw [Outcome.fault_andThen hf]
          exact later
        have same := ih (o := (resume build (o.state.2.postAll batch)).map fun h =>
          (o.state.1 ++ [h.poll], h)) later
        rw [same]
        refine (ih goesOn).trans ((Outcome.andThen_assoc _ _ _).trans (Outcome.andThen_congr ?_))
        rfl

/-- What a waiting host comes to with some batches, and what it says: as if it were driven by
hand. -/
structure Fed (build : Build) (h : Host σ) (said : List Poll) (batches : List (List Envelope))
    (o : Outcome Effect (List Poll × Host σ)) : Prop where
  same : o.map Prod.snd = h.performs build ((heeded build batches h).flatMap posting)
  said : o.fault = none → o.state.1 = said ++ (List.range (heeded build batches h).length).map
    fun n => (h.performs build (((heeded build batches h).take (n + 1)).flatMap posting)).state.poll
  waits : o.fault = none → ∀ n < (heeded build batches h).length,
    (h.performs build (((heeded build batches h).take n).flatMap posting)).state.isDone = false
  ends : o.fault = none → (heeded build batches h).length < batches.length →
    o.state.2.isDone = true

theorem heeded_of_waiting {batch : List Envelope} {rest : List (List Envelope)}
    (waiting : h.isDone = false) : heeded build (batch :: rest) h =
      batch :: heeded build rest ((h.postAll batch).start build).state := by
  rw [heeded, if_neg (by simp [waiting])]

/-- What is done by hand after a first batch is done to where that batch leaves the host. -/
theorem state_postings {batch : List Envelope}
    (hf : ((h.postAll batch).start build).fault = none) (batches : List (List Envelope)) :
    (h.performs build ((batch :: batches).flatMap posting)).state =
      (((h.postAll batch).start build).state.performs build (batches.flatMap posting)).state := by
  rw [List.flatMap_cons, performs_posting, Outcome.state_andThen hf]

section

variable {said : List Poll} {batch : List Envelope} {batches rest : List (List Envelope)}
  {later : Outcome Effect (List Poll × Host σ)}

/-- Nothing is heeded by a host that has no tab left, and of no batches. -/
theorem Fed.nothing (none : heeded build batches h = [])
    (ends : 0 < batches.length → h.isDone = true) :
    Fed build h said batches (.ok (said, h)) := by
  refine ⟨?_, fun _ => ?_, fun _ n hn => ?_, fun _ hn => ?_⟩
  · rw [none]
    rfl
  · rw [none]
    exact (List.append_nil _).symm
  · rw [none] at hn
    exact absurd hn (Nat.not_lt_zero _)
  · rw [none] at hn
    exact ends hn

/-- A batch with which the host breaks is the last one. -/
theorem Fed.breaks (waiting : h.isDone = false) {f : Fault}
    (hf : ((h.postAll batch).start build).fault = some f) :
    Fed build h said (batch :: rest)
      (((h.postAll batch).start build).map fun h => (said ++ [h.poll], h)) := by
  refine ⟨?_, fun hn => ?_, fun hn => ?_, fun hn => ?_⟩
  · rw [heeded_of_waiting waiting, List.flatMap_cons, performs_posting,
      Outcome.andThen_of_fault hf]
    rfl
  all_goals cases hf.symm.trans hn

/-- The other batches come to the host where the first one leaves it. -/
theorem Fed.cons (waiting : h.isDone = false)
    (hf : ((h.postAll batch).start build).fault = none)
    (fed : Fed build ((h.postAll batch).start build).state
      (said ++ [((h.postAll batch).start build).state.poll]) rest later) :
    Fed build h said (batch :: rest)
      ((((h.postAll batch).start build).map fun h => (said ++ [h.poll], h)).andThen
        fun _ => later) := by
  have here : (((h.postAll batch).start build).map fun h =>
    (said ++ [h.poll], h)).fault = none := hf
  have heeds : heeded build (batch :: rest) h =
    batch :: heeded build rest ((h.postAll batch).start build).state := heeded_of_waiting waiting
  have state := state_postings hf
  refine ⟨?_, fun hn => ?_, fun hn n less => ?_, fun hn less => ?_⟩
  · rw [heeds, List.flatMap_cons, performs_posting]
    refine Eq.trans ?_ (Outcome.andThen_congr (f := fun _ => _) fed.same)
    simp [Outcome.andThen, Outcome.map, hf]
  all_goals rw [Outcome.fault_andThen here] at hn
  · rw [Outcome.state_andThen here]
    refine (fed.said hn).trans ?_
    simp only [heeds, List.length_cons, List.range_succ_eq_map, List.map_cons, List.map_map,
      List.append_assoc, List.singleton_append, List.take_succ_cons, Function.comp_def, state,
      List.take_zero, List.flatMap_nil]
    rfl
  · rw [heeds, List.length_cons] at less
    rw [heeds]
    cases n with
    | zero => exact waiting
    | succ n =>
      rw [List.take_succ_cons, state]
      exact fed.waits hn n (Nat.lt_of_succ_lt_succ less)
  · rw [Outcome.state_andThen here]
    rw [heeds, List.length_cons, List.length_cons] at less
    exact fed.ends hn (Nat.lt_of_succ_lt_succ less)

end

theorem fed (build : Build) (hs : h.Sound) (hr : h.AtRest) (said : List Poll)
    (batches : List (List Envelope)) :
    Fed build h said batches (feed build batches (.ok (said, h))) := by
  induction batches generalizing h said with
  | nil => exact .nothing rfl fun hn => absurd hn (Nat.not_lt_zero _)
  | cons batch rest ih =>
    cases done : h.isDone with
    | true =>
      rw [feed, Outcome.state_ok, if_pos done]
      exact .nothing (by rw [heeded, if_pos done]) fun _ => done
    | false =>
      have first : feed build (batch :: rest) (.ok (said, h)) =
          feed build rest (((h.postAll batch).start build).map fun h => (said ++ [h.poll], h)) := by
        rw [feed, Outcome.state_ok, if_neg (by simp [done]), Outcome.ok_andThen]
        show feed build rest (((h.postAll batch).resume build).map _) = _
        rw [resume_postAll hr]
      have sound := hs.postAll batch
      rw [first]
      cases hf : ((h.postAll batch).start build).fault with
      | some f =>
        rw [feed_of_fault build (o := ((h.postAll batch).start build).map fun h =>
          (said ++ [h.poll], h)) hf]
        exact .breaks done hf
      | none =>
        rw [feed_eq_andThen build rest (o := ((h.postAll batch).start build).map fun h =>
          (said ++ [h.poll], h)) hf]
        exact .cons done hf (ih (sound_start sound hf) (atRest_start sound hf) _)

theorem heeded_prefix (build : Build) (batches : List (List Envelope)) (h : Host σ) :
    heeded build batches h <+: batches := by
  induction batches generalizing h with
  | nil => exact List.nil_prefix
  | cons batch rest ih =>
    rw [heeded]
    split
    · exact List.nil_prefix
    · exact (List.prefix_cons_inj batch).mpr (ih _)

/-- A host that is driven by hand is at rest after each batch. -/
theorem atRest_postings (hs : h.Sound) (hr : h.AtRest) {batches : List (List Envelope)}
    (hf : (h.performs build (batches.flatMap posting)).fault = none) :
    (h.performs build (batches.flatMap posting)).state.Sound ∧
      (h.performs build (batches.flatMap posting)).state.AtRest := by
  induction batches generalizing h with
  | nil => exact ⟨hs, hr⟩
  | cons batch rest ih =>
    have sound := hs.postAll batch
    rw [List.flatMap_cons, performs_posting] at hf ⊢
    obtain ⟨first, later⟩ := Outcome.fault_andThen_eq_none_iff.mp hf
    rw [Outcome.state_andThen first]
    exact ih (sound_start sound first) (atRest_start sound first) later

theorem state_byHand (hf : (h.start build).fault = none) (batches : List (List Envelope)) :
    (h.performs build (byHand batches)).state =
      ((h.start build).state.performs build (batches.flatMap posting)).state :=
  Outcome.state_andThen hf _

/-- A host that is driven by hand without breaking is at rest after every batch on the way. -/
theorem atRest_byHand (hs : h.Sound) {batches : List (List Envelope)}
    (hf : (h.performs build (byHand batches)).fault = none) (n : Nat) :
    (h.performs build (byHand (batches.take n))).state.Sound ∧
      (h.performs build (byHand (batches.take n))).state.AtRest := by
  rw [byHand, ← List.take_append_drop n batches, List.flatMap_append, ← List.cons_append,
    performs_append] at hf
  obtain ⟨first, later⟩ := Outcome.fault_andThen_eq_none_iff.mp
    (Outcome.fault_andThen_eq_none_iff.mp hf).1
  rw [state_byHand first]
  exact atRest_postings (sound_start hs first) (atRest_start hs first) later

/-! ## The whole run -/

/-- A run works until it is idle first, and then takes up the batches. -/
theorem drive_eq_andThen (begins : (h.start build).fault = none)
    (batches : List (List Envelope)) :
    h.drive build batches = ((h.start build).map fun h => ([h.poll], h)).andThen fun _ =>
      feed build batches (.ok ([(h.start build).state.poll], (h.start build).state)) := by
  have begins' : ((h.start build).map fun h => ([h.poll], h)).fault = none := begins
  exact (feed_eq_andThen build batches begins').trans (Outcome.andThen_congr rfl)

/-- What a host does that runs until its last tab is gone, with some batches of envelopes of which
it heeds the first ones, by what it does when it is driven by hand. -/
structure DrivenByHand (build : Build) (h : Host σ) (batches heeded : List (List Envelope)) :
    Prop where
  first : heeded <+: batches
  /-- The tabs, the calls of their content, the messages, the surfaces and all else are the same. -/
  same : (h.drive build batches).map Prod.snd = h.performs build (byHand heeded)
  /-- It is ready when no tab is left, and pending else. -/
  said : (h.drive build batches).fault = none → (h.drive build batches).state.1 =
    (List.range (heeded.length + 1)).map fun n =>
      (h.performs build (byHand (heeded.take n))).state.poll
  waits : (h.drive build batches).fault = none → ∀ n < heeded.length,
    (h.performs build (byHand (heeded.take n))).state.isDone = false
  ends : (h.drive build batches).fault = none → heeded.length < batches.length →
    (h.drive build batches).state.2.isDone = true
  /-- Each time it goes round its loop until the inbox is empty or no tab is left. -/
  goesOn : (h.drive build batches).fault = none → ∀ n (hn : n < heeded.length), ∀ o,
    Polled build ((h.performs build (byHand (heeded.take n))).state.postAll heeded[n]) o ↔
      o = answered (((h.performs build (byHand (heeded.take n))).state.postAll
        heeded[n]).start build)
  /-- What is posted later stays in the inbox. -/
  unread : (h.drive build batches).fault = none → ∀ es,
    (h.drive build batches).state.2.postAll es =
      { (h.drive build batches).state.2 with inbox := es }

/-- A run that breaks before it waits for the first time. -/
theorem DrivenByHand.breaks {batches taken : List (List Envelope)} {f : Fault}
    (begins : (h.start build).fault = some f) (first : taken <+: batches) :
    h.DrivenByHand build batches taken := by
  have begins' : ((h.start build).map fun h => ([h.poll], h)).fault = some f := begins
  have drive : h.drive build batches = (h.start build).map fun h => ([h.poll], h) :=
    feed_of_fault build begins' batches
  have stopped : (h.drive build batches).fault = some f := by
    rw [drive]
    exact begins
  refine ⟨first, ?_, ?_, ?_, ?_, ?_, ?_⟩
  · rw [drive]
    exact (Outcome.andThen_of_fault begins _).symm
  all_goals
    intro hn
    cases stopped.symm.trans hn

/-- A host that waits for envelopes does with each batch of them what a run until idle does, and
says that it is ready as soon as no tab is left. -/
theorem drives_as_by_hand {build : Build} {h : Host σ} (hr : h.Reachable build)
    (batches : List (List Envelope)) :
    h.DrivenByHand build batches (heeded build batches (h.start build).state) := by
  have hs := hr.sound
  have first := heeded_prefix build batches (h.start build).state
  cases begins : (h.start build).fault with
  | some f => exact .breaks begins first
  | none =>
    have begins' : ((h.start build).map fun h => ([h.poll], h)).fault = none := begins
    obtain ⟨later, said, waits, ends⟩ := fed build (sound_start hs begins)
      (atRest_start hs begins) [(h.start build).state.poll] batches
    have drive := drive_eq_andThen begins batches
    generalize feed build batches (.ok ([(h.start build).state.poll], (h.start build).state)) =
      rest at later said waits ends drive
    generalize heeded build batches (h.start build).state = taken at later said waits ends first ⊢
    have state : (h.drive build batches).state = rest.state := by
      rw [drive, Outcome.state_andThen begins']
    have fault : (h.drive build batches).fault = rest.fault := by
      rw [drive, Outcome.fault_andThen begins']
    have same : (h.drive build batches).map Prod.snd = h.performs build (byHand taken) := by
      have whole : (h.start build).andThen (fun _ => rest.map Prod.snd) =
        h.performs build (byHand taken) := Outcome.andThen_congr later
      rw [drive, ← whole]
      simp [Outcome.andThen, Outcome.map, begins]
    have rests : (h.drive build batches).fault = none → ∀ n,
        (h.performs build (byHand (taken.take n))).state.Sound ∧
          (h.performs build (byHand (taken.take n))).state.AtRest :=
      fun hn => atRest_byHand hs ((congrArg Outcome.fault same).symm.trans hn)
    have pending : (h.drive build batches).fault = none → ∀ n < taken.length,
        (h.performs build (byHand (taken.take n))).state.isDone = false := by
      intro hn n less
      rw [state_byHand begins]
      exact waits (fault.symm.trans hn) n less
    refine ⟨first, same, fun hn => ?_, pending, fun hn less => ?_,
      fun hn n less o => polled_iff (rests hn n).1 (rests hn n).2 (pending hn n less) _,
      fun hn es => ?_⟩
    · rw [state, said (fault.symm.trans hn), List.range_succ_eq_map]
      simp only [List.map_cons, List.map_map, Function.comp_def, state_byHand begins]
      rfl
    · rw [state]
      exact ends (fault.symm.trans hn) less
    · have final : (h.drive build batches).state.2 = (h.performs build (byHand taken)).state :=
        congrArg Outcome.state same
      have rest := (rests hn taken.length).2.inbox
      rw [List.take_length, ← final] at rest
      rw [postAll_eq, rest]
      rfl

/-- A host with one tab. -/
def singleTab : Host Headless :=
  ((new {} .zero {}).performs .checked [.event (.create { value := 7 } {})]).state

/-- The tab is told to become active, then that and to be destroyed, and then once more. -/
def lastBatches : List (List Envelope) :=
  [[{ tab := { value := 7 }, request := .setActive true }],
    [{ tab := { value := 7 }, request := .setActive false },
      { tab := { value := 7 }, priority := .input, request := .destroy }],
    [{ tab := { value := 7 }, request := .setActive true }]]

/-- The host waits twice, and is ready after the second batch. It heeds no other one. -/
theorem driven_lastTab :
    singleTab.DrivenByHand .checked lastBatches (lastBatches.take 2) ∧
      (singleTab.drive .checked lastBatches).state.1 = [.pending, .pending, .ready] ∧
      (singleTab.drive .checked lastBatches).state.2.postAll lastBatches.flatten =
        { (singleTab.drive .checked lastBatches).state.2 with inbox := lastBatches.flatten } := by
  have reached : singleTab.Reachable .checked := (Reachable.new {} .zero {}).performs (by rfl)
  have heeds : heeded .checked lastBatches (singleTab.start .checked).state =
      lastBatches.take 2 := by
    rfl
  have driven := drives_as_by_hand reached lastBatches
  rw [heeds] at driven
  exact ⟨driven, by rfl, driven.unread (by rfl) _⟩

end Host

end TabHost
