import Mathlib.Data.List.Induction
import Mathlib.Logic.Relation
import TabHost.Proofs.Batch.Arrivals

/-!
# The order in which records were started

A record stands for a chain of moves, each of which was superseded by the next. It is
started by the first of them, and holds the last of them, which waits still (`Started`).
Once it does not wait any more, the last of them is the event that is dispatched for the
record (`DoneAs`). Either way that event stands for what was started at the position of the
first (`StandsFor`), as does an event that is not kept back for itself.
-/

set_option linter.unusedSectionVars false

namespace TabHost

/-- A record was started by the move at a position: that one superseded none, and it was
superseded by the next, and so on, down to the move that the record holds, which waits
still. -/
def Started (as : List Arrival) (i : Nat) (r : MoveRecord) : Prop :=
  (∀ k, ¬Supersedes as k i) ∧
    ∃ j, Relation.ReflTransGen (Supersedes as) i j ∧ Waits as j r.event

/-- Records stand in the order in which they were started. -/
def StartedInOrder (as : List Arrival) (rs : List MoveRecord) : Prop :=
  ∃ starts : List (Nat × MoveRecord), starts.map Prod.snd = rs ∧
    starts.Pairwise (fun x y => x.1 < y.1) ∧ ∀ x ∈ starts, Started as x.1 x.2

/-- Something is started at a position: an event arrives there, and supersedes none. -/
def Opens (as : List Arrival) (i : Nat) : Prop :=
  (∃ e, eventAt as i = some e) ∧ ∀ k, ¬Supersedes as k i

/-- The pointer of the event that arrives at a position. -/
def pointerAt (as : List Arrival) (i : Nat) : Option PointerId :=
  (eventAt as i).map PointerEvent.pointer

/-- An event stands for what was started at a position: it arrived there or superseded,
in one or more steps, what did, and is not superseded itself. -/
def StandsFor (as : List Arrival) (i : Nat) (e : PointerEvent) : Prop :=
  (∀ k, ¬Supersedes as k i) ∧ ∃ j, Relation.ReflTransGen (Supersedes as) i j ∧
    ¬Superseded as j ∧ eventAt as j = some e

/-- An event stands for what was started at a position, and does not wait any more. -/
def DoneAs (as : List Arrival) (i : Nat) (e : PointerEvent) : Prop :=
  (∀ k, ¬Supersedes as k i) ∧ ∃ j, Relation.ReflTransGen (Supersedes as) i j ∧
    ¬Superseded as j ∧ (∀ m, ¬Waits as j m) ∧ eventAt as j = some e

variable {as : List Arrival} {a : Arrival} {m : PointerMove} {r : MoveRecord}
  {e : PointerEvent} {i j : Nat}

/-! ## One more arrival -/

theorem Waits.lt (h : Waits as i m) : i < as.length := (List.getElem?_eq_some_iff.mp h.1).1

theorem Supersedes.lt (h : Supersedes as i j) : i < j ∧ j < as.length := by
  obtain ⟨m, a, hw, ha, -⟩ := h
  have hlt := hw.lt
  rw [List.length_take] at hlt
  exact ⟨Nat.lt_of_lt_of_le hlt (Nat.min_le_left _ _), (List.getElem?_eq_some_iff.mp ha).1⟩

theorem le_of_superseded (h : Relation.ReflTransGen (Supersedes as) i j) : i ≤ j := by
  induction h with
  | refl => exact Nat.le_refl i
  | tail _ hs ih => exact Nat.le_trans ih (Nat.le_of_lt hs.lt.1)

theorem Started.lt (h : Started as i r) : i < as.length := by
  obtain ⟨-, j, hchain, hw⟩ := h
  exact Nat.lt_of_le_of_lt (le_of_superseded hchain) hw.lt

theorem Waits.concat (h : Waits as i m) (ha : a.ends m.pointer = false) :
    Waits (as ++ [a]) i m := by
  refine ⟨by rw [List.getElem?_append_left h.lt, h.1], fun k b hk hb => ?_⟩
  rcases Nat.lt_or_ge k as.length with hlt | hge
  · rw [List.getElem?_append_left hlt] at hb
    exact h.2 k b hk hb
  · rw [List.getElem?_append_right hge] at hb
    have hb := List.mem_of_getElem? hb
    rw [List.mem_singleton.mp hb]
    exact ha

theorem waits_concat_self : Waits (as ++ [.keep m]) as.length m := by
  refine ⟨by simp, fun k b hk hb => ?_⟩
  have hlt := (List.getElem?_eq_some_iff.mp hb).1
  rw [List.length_append, List.length_singleton] at hlt
  omega

/-- What waits after one more arrival waited before, or is that arrival. -/
theorem waits_concat_cases (h : Waits (as ++ [a]) i m) :
    Waits as i m ∧ a.ends m.pointer = false ∨ i = as.length ∧ a = .keep m := by
  have last : (as ++ [a])[as.length]? = some a := by simp
  rcases Nat.lt_trichotomy i as.length with hlt | rfl | hgt
  · refine Or.inl ⟨⟨by rw [← h.1, List.getElem?_append_left hlt], fun k b hk hb => ?_⟩,
      h.2 _ a hlt last⟩
    exact h.2 k b hk (by rw [List.getElem?_append_left (List.getElem?_eq_some_iff.mp hb).1, hb])
  · exact Or.inr ⟨rfl, Option.some.inj (last.symm.trans h.1)⟩
  · have hlt := h.lt
    rw [List.length_append, List.length_singleton] at hlt
    omega

theorem supersedes_concat (hj : j < as.length) :
    Supersedes (as ++ [a]) i j ↔ Supersedes as i j := by
  unfold Supersedes
  rw [List.take_append_of_le_length (Nat.le_of_lt hj), List.getElem?_append_left hj]

theorem supersedes_concat_last :
    Supersedes (as ++ [a]) i as.length ↔ ∃ m, Waits as i m ∧ a.replaces m = true := by
  unfold Supersedes
  rw [List.take_left]
  constructor
  · rintro ⟨m, b, hw, hb, hr⟩
    have last : (as ++ [a])[as.length]? = some a := by simp
    cases last.symm.trans hb
    exact ⟨m, hw, hr⟩
  · rintro ⟨m, hw, hr⟩
    exact ⟨m, a, hw, by simp, hr⟩

theorem lt_of_eventAt (h : eventAt as i = some e) : i < as.length := by
  obtain ⟨a, ha, -⟩ := Option.bind_eq_some_iff.mp h
  exact (List.getElem?_eq_some_iff.mp ha).1

theorem eventAt_concat (hi : i < as.length) : eventAt (as ++ [a]) i = eventAt as i := by
  rw [eventAt, eventAt, List.getElem?_append_left hi]

theorem pointerAt_concat (hi : i < as.length) : pointerAt (as ++ [a]) i = pointerAt as i := by
  rw [pointerAt, pointerAt, eventAt_concat hi]

theorem eventAt_concat_last : eventAt (as ++ [a]) as.length = a.event? := by
  rw [eventAt, List.getElem?_concat_length, Option.bind_some]

/-- Nothing that waits is superseded so far. -/
theorem Waits.not_superseded (h : Waits as i m) : ¬Superseded as i := by
  rintro ⟨j, m', a, hw, ha, hr⟩
  have hi : i < (as.take j).length := hw.lt
  have same : m' = m := by
    have := hw.1
    rw [List.getElem?_take_of_lt (by rw [List.length_take] at hi; omega), h.1] at this
    cases this
    rfl
  rw [same] at hr
  have hends := h.2 j a (by rw [List.length_take] at hi; omega) ha
  rw [Arrival.ends_of_replaces hr] at hends
  cases hends

/-- What is not superseded is superseded by one more arrival only if it waits for that. -/
theorem not_superseded_concat (h : ¬Superseded as j)
    (hw : ∀ m, Waits as j m → a.replaces m = false) : ¬Superseded (as ++ [a]) j := by
  rintro ⟨k, hs⟩
  have hk := hs.lt.2
  rw [List.length_append, List.length_singleton] at hk
  rcases Nat.lt_or_ge k as.length with hlt | hge
  · exact h ⟨k, (supersedes_concat hlt).mp hs⟩
  · obtain rfl : k = as.length := by omega
    obtain ⟨m, hm, hr⟩ := supersedes_concat_last.mp hs
    rw [hw m hm] at hr
    cases hr

theorem not_waits_concat (hj : j < as.length) (h : ∀ m, Waits as j m → a.ends m.pointer = true)
    (m : PointerMove) : ¬Waits (as ++ [a]) j m := by
  intro hw
  rcases waits_concat_cases hw with ⟨hm, ha⟩ | ⟨rfl, -⟩
  · rw [h m hm] at ha
    cases ha
  · exact Nat.lt_irrefl _ hj

/-! ## Records and one more arrival -/

theorem chain_concat (h : Relation.ReflTransGen (Supersedes as) i j) :
    Relation.ReflTransGen (Supersedes (as ++ [a])) i j := by
  have mono : Supersedes as ≤ Supersedes (as ++ [a]) :=
    fun _ _ hs => (supersedes_concat hs.lt.2).mpr hs
  exact Relation.ReflTransGen.mono mono i j h

theorem Started.not_supersedes_concat (h : Started as i r) (k : Nat) :
    ¬Supersedes (as ++ [a]) k i :=
  fun hs => h.1 k ((supersedes_concat h.lt).mp hs)

/-- A record is left as it is by all that does not end the waiting of its move. -/
theorem Started.concat (h : Started as i r) (ha : a.ends r.event.pointer = false) :
    Started (as ++ [a]) i r := by
  refine ⟨h.not_supersedes_concat, ?_⟩
  obtain ⟨-, j, hchain, hw⟩ := h
  exact ⟨j, chain_concat hchain, hw.concat ha⟩

/-- A record that is replaced was started when it was started before. -/
theorem Started.replace (h : Started as i r) (hr : (Arrival.keep m).replaces r.event = true) :
    Started (as ++ [.keep m]) i (r.replace m) := by
  refine ⟨h.not_supersedes_concat, ?_⟩
  obtain ⟨-, j, hchain, hw⟩ := h
  exact ⟨as.length, (chain_concat hchain).tail (supersedes_concat_last.mpr ⟨_, hw, hr⟩),
    waits_concat_self⟩

/-- A move that supersedes none starts a record. -/
theorem started_self (h : ∀ k m', Waits as k m' → (Arrival.keep m).replaces m' = false) :
    Started (as ++ [.keep m]) as.length { event := m } := by
  refine ⟨fun k hs => ?_, as.length, .refl, waits_concat_self⟩
  obtain ⟨m', hw, hr⟩ := supersedes_concat_last.mp hs
  exact absurd (h k m' hw) (by simp [hr])

/-! ## What events stand for -/

theorem DoneAs.standsFor (h : DoneAs as i e) : StandsFor as i e := by
  obtain ⟨first, j, chain, last, -, he⟩ := h
  exact ⟨first, j, chain, last, he⟩

/-- An event stands for what was started as it arrived, or before. -/
theorem StandsFor.exists_le (h : StandsFor as i e) : ∃ j, i ≤ j ∧ eventAt as j = some e := by
  obtain ⟨-, j, chain, -, he⟩ := h
  exact ⟨j, le_of_superseded chain, he⟩

/-- What takes the place of a move is of its pointer. -/
theorem Supersedes.pointerAt (h : Supersedes as i j) : pointerAt as i = pointerAt as j := by
  obtain ⟨m, hm⟩ := exists_keep_of_superseded ⟨j, h⟩
  obtain ⟨m', a, hw, ha, hr⟩ := h
  have same : m' = m := by
    have hlt := hw.lt
    rw [List.length_take] at hlt
    have := hw.1
    rw [List.getElem?_take_of_lt (by omega), hm] at this
    cases this
    rfl
  subst same
  cases a with
  | keep newer =>
    simp only [Arrival.replaces, Bool.and_eq_true, decide_eq_true_eq] at hr
    rw [TabHost.pointerAt, TabHost.pointerAt, eventAt, eventAt, hm, ha]
    exact congrArg some hr.1.symm
  | _ => cases hr

/-- An event is of the pointer of what was started. -/
theorem StandsFor.pointerAt (h : StandsFor as i e) : pointerAt as i = some e.pointer := by
  obtain ⟨-, j, chain, -, he⟩ := h
  have same : TabHost.pointerAt as i = TabHost.pointerAt as j := by
    clear he
    induction chain with
    | refl => rfl
    | tail _ hs ih => exact ih.trans hs.pointerAt
  rw [same, TabHost.pointerAt, he, Option.map_some]

theorem StandsFor.opens (h : StandsFor as i e) : Opens as i := by
  obtain ⟨e', he', -⟩ := Option.map_eq_some_iff.mp h.pointerAt
  exact ⟨⟨e', he'⟩, h.1⟩

theorem Started.standsFor (h : Started as i r) : StandsFor as i r.toEvent := by
  obtain ⟨first, j, chain, hw⟩ := h
  refine ⟨first, j, chain, hw.not_superseded, ?_⟩
  rw [eventAt, hw.1]
  rfl

theorem DoneAs.lt (h : DoneAs as i e) : i < as.length := by
  obtain ⟨-, j, chain, -, -, he⟩ := h
  exact Nat.lt_of_le_of_lt (le_of_superseded chain) (lt_of_eventAt he)

/-- What is done with is left as it is by all that arrives. -/
theorem DoneAs.concat (h : DoneAs as i e) (a : Arrival) : DoneAs (as ++ [a]) i e := by
  have hi := h.lt
  obtain ⟨first, j, chain, last, done, he⟩ := h
  have hj := lt_of_eventAt he
  refine ⟨fun k hs => first k ((supersedes_concat hi).mp hs), j, chain_concat chain,
    not_superseded_concat last fun m hm => absurd hm (done m),
    not_waits_concat hj fun m hm => absurd hm (done m), ?_⟩
  rw [eventAt_concat hj, he]

/-- A record is done with when the waiting of its move ends and nothing takes its place. -/
theorem Started.doneAs (h : Started as i r) (ends : a.ends r.event.pointer = true)
    (hr : a.replaces r.event = false) : DoneAs (as ++ [a]) i r.toEvent := by
  have first := fun k => h.not_supersedes_concat (a := a) k
  obtain ⟨-, j, chain, hw⟩ := h
  have same : ∀ m, Waits as j m → m = r.event := fun m hm => by
    have := hm.1.symm.trans hw.1
    cases this
    rfl
  refine ⟨first, j, chain_concat chain, not_superseded_concat hw.not_superseded
    fun m hm => same m hm ▸ hr, not_waits_concat hw.lt fun m hm => same m hm ▸ ends, ?_⟩
  rw [eventAt_concat hw.lt, eventAt, hw.1]
  rfl

/-- An event that is not kept back is done with as it arrives. -/
theorem doneAs_self : DoneAs (as ++ [.behind e]) as.length e := by
  have last : (as ++ [.behind e])[as.length]? = some (.behind e) := List.getElem?_concat_length
  refine ⟨fun k hs => ?_, as.length, .refl, fun hs => ?_, fun m hm => ?_, eventAt_concat_last⟩
  · obtain ⟨m, -, hr⟩ := supersedes_concat_last.mp hs
    cases hr
  · obtain ⟨m, hm⟩ := exists_keep_of_superseded hs
    cases last.symm.trans hm
  · cases last.symm.trans hm.1

namespace MoveBatch

theorem after_concat (b : MoveBatch) (as : List Arrival) (a : Arrival) :
    b.after (as ++ [a]) = (b.after as).next a := List.foldl_append

/-- A move that waits is held. -/
theorem held?_of_waits (h : Waits as i m) :
    (({} : MoveBatch).after as).held? m.pointer = some m := by
  induction as using List.reverseRecOn generalizing i with
  | nil => exact absurd h not_waits_nil
  | append_singleton as a ih =>
    rw [after_concat]
    rcases waits_concat_cases h with ⟨hw, ha⟩ | ⟨-, rfl⟩
    · cases a with
      | keep m' =>
        have hne : m.pointer ≠ m'.pointer := fun heq => by simp [Arrival.ends, heq] at ha
        rw [next, held?_add, if_neg hne]
        exact ih hw
      | behind e => cases ha
      | flush => cases ha
      | other => exact ih hw
    · rw [next, held?_add, if_pos rfl]

end MoveBatch

end TabHost
