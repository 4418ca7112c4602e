import Mathlib.Data.List.Basic
import TabHost.Proofs.Host.Teardown
import TabHost.Proofs.Tab.Dialogue

/-!
# What a host sends for a tab

The stream that all tabs of a host share holds the messages of all tabs, each with the id of
the tab that it comes from. Of one incarnation of a tab it holds a dialogue: acknowledgements
and answers to keys, and at the end the farewell, just if the tab parts in order. The epochs
that are acknowledged ascend as long as the gate keeps count of its blockers
(`Host.said_by_incarnation`).

An unchecked build counts blockers modulo `2^32` (`Host.performs_addBlockers`). Where the count
comes to zero again while a request is put off, a newer one is acknowledged before it
(`Host.said_out_of_order`).
-/

set_option linter.unusedSectionVars false

namespace TabHost

/-- The messages of a tab into the stream that all tabs share. -/
def Outcome.said {α : Type} (tab : TabId) (o : Outcome Effect α) : List Reply :=
  (o.outgoing.filter fun m => m.tab = tab).map Outgoing.reply

/-- A tab that sends into the shared stream only is heard there. -/
theorem Outcome.said_eq_saidBy {α : Type} {tab : TabId} {o : Outcome Effect α}
    (h : ∀ route m, .sent route m ∈ o.trace → m.tab = tab → route = .shared) :
    o.said tab = saidBy tab o.trace := by
  unfold Outcome.said Outcome.outgoing saidBy
  rw [List.filter_filterMap, List.map_filterMap]
  refine List.filterMap_congr fun e he => ?_
  cases e with
  | created | call => rfl
  | sent route m =>
    by_cases hm : m.tab = tab
    · obtain rfl := h route m he hm
      simp [Effect.shared?, Effect.replyOf?, hm, Option.filter]
    · cases route <;> simp [Effect.shared?, Effect.replyOf?, hm, Option.filter]

/-- The tab with another count of blockers. -/
def Tab.counting {σ : Type} (blockers : UInt32) (t : Tab σ) : Tab σ :=
  { t with gate := { t.gate with blockers := blockers } }

namespace Host

variable {σ : Type} [Content σ]

/-- One incarnation of a tab says a dialogue, with ascending epochs unless its gate loses
count, and the farewell just if it parts in order. -/
theorem said_by_incarnation (build : Build) {h h₁ : Host σ} (hr : h.Reachable build)
    {tab : TabId} {content : σ}
    (hc : h.create? tab content { tab := tab } = .ok (.emit (.created tab) h₁)) {t : Tab σ}
    (ht : h₁.tabs.get? tab = some t) (ops : List (Op σ)) (hd : .event .shutdown ∉ ops)
    (hu : Untouched tab (h₁.performs build ops).trace) :
    Tab.IsDialogue ((h₁.performs build ops).said tab) ∧
    (t.KeepsCount build (h₁.turnsOf build tab (h₁.eventsOfAll build ops)) →
      (((h₁.performs build ops).said tab).filterMap Reply.epoch?).Pairwise (· < ·)) ∧
    (.channelClose ∈ (h₁.performs build ops).said tab ↔
      Tab.PartsInOrder build t (h₁.turnsOf build tab (h₁.eventsOfAll build ops))) := by
  have created : h.step build (.create tab content) = .emit (.created tab) h₁ := by
    rw [step, createIfNew, hc]
  have hs₁ : h₁.Sound := by
    have := sound_step build hr.sound (.create tab content)
    rw [created] at this
    exact this
  have fresh : t = (Tab.create tab h.settings content).connected { tab := tab } := by
    unfold create? at hc
    split at hc
    · cases hc
    · cases hc
      exact Option.some.inj (ht.symm.trans (Table.get?_insert_self _ _ _))
  obtain ⟨hsound, hname⟩ := hs₁ tab t ht
  have hshared : t.IsShared := by
    intro l hl
    rw [fresh] at hl
    cases hl
    rfl
  have parting : Tab.Parting build tab t [] t := by
    refine ⟨fun _ => ?_, fun hn => ?_, fun _ => ?_, hshared⟩ <;> rw [fresh] at *
    · refine ⟨rfl, ?_⟩
      rintro ⟨x, hx, -⟩
      exact absurd hx List.not_mem_nil
    · cases hn
    · rfl
  have settled : t.Settled := by
    rw [fresh]
    exact Tab.settled_connected tab _ _ _
  rw [performs_eq_runs] at hu ⊢
  have undropped : ∀ x ∈ h₁.turnsOf build tab (h₁.eventsOfAll build ops), x.act ≠ .drop := by
    refine fun x hx => act_ne_drop_of_mem_turnsOf (fun he => ?_) hx
    rcases mem_eventsOfAll he with hop | he | ⟨_, he⟩
    · exact hd hop
    · cases he
    · cases he
  have tells := tells_runs build _ hs₁ ht hu
  -- what the host sends for the tab is what the tab says in its turns
  have said : (h₁.runs build (h₁.eventsOfAll build ops)).said tab =
      saidBy tab (t.turns build (h₁.turnsOf build tab (h₁.eventsOfAll build ops))).trace := by
    rw [Outcome.said_eq_saidBy, ← saidBy_filter_isOf, tells.trace]
    intro route m he hm
    refine Tab.isShared_turns build _ hsound hshared undropped route m ?_
    rw [← tells.trace]
    exact List.mem_filter.mpr ⟨he, by simp [Effect.isOf, hm]⟩
  rw [said]
  exact ⟨Tab.said_turns build _ hsound hname undropped,
    fun hcount => (Tab.pairwise_acked_turns build tab _ hsound settled undropped hcount).1,
    Tab.farewell_iff build hsound hname parting undropped⟩

/-- Three requests to render, and one to destroy, for the tab of `single`. -/
def renderThrice : List (Op Headless) :=
  [1, 2, 3].map (fun epoch => .event (.post
    { tab := { value := 7 }, request := .setRenderState true false { value := epoch } })) ++
  [.event (.post { tab := { value := 7 }, request := .destroy }), .runUntilIdle]

/-- The tab starts to render with the first request, acknowledges the others, and says
farewell when it is destroyed. -/
theorem said_by_incarnation_single :
    (single.performs .checked renderThrice).said { value := 7 } =
      [.acknowledge { value := 2 }, .acknowledge { value := 3 }, .channelClose] ∧
    Tab.IsDialogue ((single.performs .checked renderThrice).said { value := 7 }) ∧
    (((single.performs .checked renderThrice).said { value := 7 }).filterMap
      Reply.epoch?).Pairwise (· < ·) ∧
    ∃ t, single.tabs.get? { value := 7 } = some t ∧ Tab.PartsInOrder .checked t
      (single.turnsOf .checked { value := 7 } (single.eventsOfAll .checked renderThrice)) := by
  have said : (single.performs .checked renderThrice).said { value := 7 } =
      [.acknowledge { value := 2 }, .acknowledge { value := 3 }, .channelClose] := by rfl
  have created : (new {} .zero {} : Host Headless).create? { value := 7 } {}
      { tab := { value := 7 } } = .ok (.emit (.created { value := 7 }) single) := rfl
  obtain ⟨dialogue, ascending, farewell⟩ :=
    said_by_incarnation .checked (.new {} .zero {}) created rfl renderThrice
      (by simp [renderThrice]) (by unfold Untouched; decide)
  refine ⟨said, dialogue, ascending (Or.inl rfl), _, rfl, farewell.mp ?_⟩
  rw [said]
  simp

/-! ## A count that starts again -/

/-- An unchecked build counts the blockers of a live tab modulo `2^32`. -/
theorem performs_addBlockers (n : Nat) {h : Host σ} {tab : TabId} {t : Tab σ}
    (ht : h.tabs.get? tab = some t) (live : t.state.isLive = true) :
    h.performs .unchecked (List.replicate n (.event (.addBlocker tab))) =
      .ok { h with tabs := h.tabs.insert tab (t.counting (t.gate.blockers + .ofNat n)) } := by
  induction n generalizing h t with
  | zero =>
    have same : t.counting (t.gate.blockers + .ofNat 0) = t :=
      congrArg (fun blockers => t.counting blockers) (UInt32.add_zero _)
    rw [same, Table.insert_of_get?_eq_some ht]
    rfl
  | succ n ih =>
    have added : h.perform .unchecked (.event (.addBlocker tab)) =
        .ok { h with tabs := h.tabs.insert tab (t.counting (t.gate.blockers + 1)) } := by
      simp [perform, step, addBlocker, onHosted, onTab, Table.contains, ht, Seat.addBlocker, live,
        Gate.addBlocker, Seat.setGate, Outcome.map, Outcome.ok, Tab.counting]
    have later := ih (h := { h with tabs := h.tabs.insert tab (t.counting (t.gate.blockers + 1)) })
      (Table.get?_insert_self _ _ _) live
    have count : t.gate.blockers + 1 + .ofNat n = t.gate.blockers + .ofNat (n + 1) := by
      rw [UInt32.add_assoc, UInt32.add_comm 1, UInt32.ofNat_add]
      rfl
    rw [List.replicate_succ, performs, added, Outcome.ok_andThen, later]
    dsimp only [Tab.counting]
    rw [Table.insert_insert, count]

/-- A host with one tab, whose content is visible. -/
def showing : Host Headless :=
  ((new {} .zero {}).step .unchecked (.create { value := 7 } { visible := true })).state

/-- The tab of `showing` is asked to render. -/
def renderAt (epoch : UInt64) : Op Headless :=
  .event (.post { tab := { value := 7 }, request := .setRenderState true false { value := epoch } })

/-- A request that a blocker puts off. -/
def deferredRequest : List (Op Headless) :=
  [.event (.addBlocker { value := 7 }), renderAt 2, .runUntilIdle]

/-- A newer request, and a blocker that is added and removed behind it. -/
def promptRequest : List (Op Headless) :=
  [renderAt 3, .runUntilIdle, .event (.addBlocker { value := 7 }),
    .event (.removeBlocker { value := 7 })]

/-- Between the two requests so many blockers more are added. -/
def miscounted (n : Nat) : List (Op Headless) :=
  deferredRequest ++ List.replicate n (.event (.addBlocker { value := 7 })) ++ promptRequest

/-- The host whose tab has put a request off and counts no blockers. -/
def uncounted : Host Headless :=
  { (showing.performs .unchecked deferredRequest).state with
    tabs :=
      (showing.performs .unchecked deferredRequest).state.tabs.modify { value := 7 }
        (.counting 0) }

/-- With as many blockers as bring the count to zero again, the newer request finds none. -/
theorem performs_miscounted {n : Nat} (wraps : (1 : UInt32) + .ofNat n = 0) :
    showing.performs .unchecked (miscounted n) = uncounted.performs .unchecked promptRequest := by
  obtain ⟨t, ht, live, one⟩ :
      ∃ t, (showing.performs .unchecked deferredRequest).state.tabs.get? { value := 7 } = some t ∧
        t.state.isLive = true ∧ t.gate.blockers = 1 := ⟨_, rfl, rfl, rfl⟩
  have waits : showing.performs .unchecked deferredRequest =
      .ok (showing.performs .unchecked deferredRequest).state := rfl
  have added := performs_addBlockers n ht live
  rw [one, wraps, ← Table.modify_eq_insert ht (.counting 0)] at added
  rw [miscounted, performs_append, performs_append, waits, Outcome.ok_andThen]
  exact (congrArg (Outcome.andThen · (performs .unchecked promptRequest)) added).trans
    (Outcome.ok_andThen ..)

/-- In an unchecked build the epochs that a tab acknowledges need not ascend: with `2^32` blockers
the gate takes itself to be free, and a newer request is acknowledged before the one that is put
off. -/
theorem said_out_of_order :
    (new {} .zero {} : Host Headless).create? { value := 7 } { visible := true }
        { tab := { value := 7 } } = .ok (.emit (.created { value := 7 }) showing) ∧
      .event .shutdown ∉ miscounted (UInt32.size - 1) ∧
      Untouched { value := 7 }
        (showing.performs .unchecked (miscounted (UInt32.size - 1))).trace ∧
      (showing.performs .unchecked (miscounted (UInt32.size - 1))).fault = none ∧
      (showing.performs .unchecked (miscounted (UInt32.size - 1))).said { value := 7 } =
        [.acknowledge { value := 3 }, .acknowledge { value := 2 }] ∧
      ¬(((showing.performs .unchecked (miscounted (UInt32.size - 1))).said
        { value := 7 }).filterMap Reply.epoch?).Pairwise (· < ·) := by
  have wrapped := performs_miscounted (n := UInt32.size - 1) (by decide)
  have said : (uncounted.performs .unchecked promptRequest).said { value := 7 } =
      [.acknowledge { value := 3 }, .acknowledge { value := 2 }] := by rfl
  have running : ∀ n, (.event .shutdown : Op Headless) ∉ miscounted n := by
    simp [miscounted, deferredRequest, promptRequest, renderAt, List.mem_replicate]
  rw [wrapped, said]
  exact ⟨rfl, running _, by unfold Untouched; decide, rfl, rfl, by decide⟩

end Host

end TabHost
