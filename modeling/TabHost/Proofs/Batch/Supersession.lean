import TabHost.Proofs.Batch.Moves

/-!
# Superseded moves

A batch of moves sees of what is done to its tab a list of arrivals: moves that it may keep
back, events that go behind all that waits, and flushes. A move is superseded if it waits
still when a move of the same pointer arrives that may take its place (`Superseded`); this
is told by the arrivals alone, without a batch.

Looking ahead along the arrivals, each event is superseded or survives (`survivors`). What
survives of a pointer is what arrives of it but for the superseded moves
(`keptOf_survivors`), and the last event of a pointer always survives
(`getLast?_survivors`).
-/

set_option linter.unusedSectionVars false

namespace TabHost

/-- What reaches a batch of moves. -/
inductive Arrival where
  /-- A move that may be kept back. -/
  | keep (m : PointerMove)
  /-- An event that goes behind all that waits. -/
  | behind (e : PointerEvent)
  /-- All that waits is to be dispatched. -/
  | flush
  /-- Something that does not concern pointers. -/
  | other

namespace Arrival

/-- The event that arrives. -/
def event? : Arrival → Option PointerEvent
  | .keep m => some (.move m)
  | .behind e => some e
  | .flush => none
  | .other => none

/-- Whether a move of a pointer that waits does not wait any more as the newest one. -/
def ends (p : PointerId) : Arrival → Bool
  | .keep m => m.pointer = p
  | .behind _ => true
  | .flush => true
  | .other => false

/-- Whether a move takes the place of an older one. -/
def replaces (older : PointerMove) : Arrival → Bool
  | .keep m => decide (m.pointer = older.pointer) && older.sameButtons m
  | _ => false

theorem ends_of_replaces {a : Arrival} {m : PointerMove} (h : a.replaces m = true) :
    a.ends m.pointer = true := by
  cases a with
  | keep m' =>
    simp only [replaces, Bool.and_eq_true] at h
    exact h.1
  | behind e => rfl
  | flush => rfl
  | other => cases h

end Arrival

/-! ## Superseded moves -/

/-- The event that arrives at a position. -/
def eventAt (as : List Arrival) (i : Nat) : Option PointerEvent := as[i]?.bind Arrival.event?

/-- A move that arrived at a position waits still: there was no flush since, and no other
move of its pointer. -/
def Waits (as : List Arrival) (i : Nat) (m : PointerMove) : Prop :=
  as[i]? = some (.keep m) ∧ ∀ k a, i < k → as[k]? = some a → a.ends m.pointer = false

/-- The move at the first position waits still when another one, which arrives at the
second position, takes its place. -/
def Supersedes (as : List Arrival) (i j : Nat) : Prop :=
  ∃ m a, Waits (as.take j) i m ∧ as[j]? = some a ∧ a.replaces m = true

/-- A later move takes the place of the move at a position. -/
def Superseded (as : List Arrival) (i : Nat) : Prop := ∃ j, Supersedes as i j

/-- Events of a pointer are those that arrived, in their order, but for the superseded
ones, each as it arrived and just once. -/
def KeptOf (p : PointerId) (as : List Arrival) (events : List PointerEvent) : Prop :=
  ∃ kept : List Nat, kept.Pairwise (· < ·) ∧
    (∀ i, i ∈ kept ↔ (∃ e, eventAt as i = some e ∧ e.pointer = p) ∧ ¬Superseded as i) ∧
    events = kept.filterMap (eventAt as)

variable {as : List Arrival} {a : Arrival} {m : PointerMove} {p : PointerId} {i j : Nat}

theorem waits_cons_zero : Waits (a :: as) 0 m ↔
    a = .keep m ∧ ∀ (k : Nat) (b : Arrival), as[k]? = some b → b.ends m.pointer = false := by
  constructor
  · rintro ⟨ha, h⟩
    exact ⟨Option.some.inj ha, fun k b hb => h (k + 1) b (Nat.succ_pos k) hb⟩
  · rintro ⟨rfl, h⟩
    refine ⟨rfl, fun k b hk hb => ?_⟩
    cases k with
    | zero => cases hk
    | succ k => exact h k b hb

theorem waits_cons_succ : Waits (a :: as) (i + 1) m ↔ Waits as i m := by
  constructor
  · rintro ⟨ha, h⟩
    exact ⟨ha, fun k b hk hb => h (k + 1) b (Nat.succ_lt_succ hk) hb⟩
  · rintro ⟨ha, h⟩
    refine ⟨ha, fun k b hk hb => ?_⟩
    cases k with
    | zero => cases hk
    | succ k => exact h k b (Nat.lt_of_succ_lt_succ hk) hb

theorem not_waits_nil : ¬Waits [] i m := fun h => by cases h.1

theorem not_supersedes_zero : ¬Supersedes as i 0 := by
  rintro ⟨m, a, h, -⟩
  exact not_waits_nil h

theorem superseded_cons_succ : Superseded (a :: as) (i + 1) ↔ Superseded as i := by
  constructor
  · rintro ⟨j, h⟩
    cases j with
    | zero => exact absurd h not_supersedes_zero
    | succ j =>
      obtain ⟨m, b, hw, hb, hr⟩ := h
      exact ⟨j, m, b, waits_cons_succ.mp hw, hb, hr⟩
  · rintro ⟨j, m, b, hw, hb, hr⟩
    exact ⟨j + 1, m, b, waits_cons_succ.mpr hw, hb, hr⟩

/-- Only moves that may be kept back are superseded. -/
theorem exists_keep_of_superseded (h : Superseded as i) : ∃ m, as[i]? = some (.keep m) := by
  obtain ⟨j, m, a, hw, -⟩ := h
  refine ⟨m, ?_⟩
  have := hw.1
  rw [List.getElem?_take] at this
  split at this
  · exact this
  · cases this

/-! ## Looking ahead -/

/-- Whether a move is superseded by what arrives next. -/
def isSuperseded (m : PointerMove) : List Arrival → Bool
  | [] => false
  | a :: rest => if a.ends m.pointer then a.replaces m else isSuperseded m rest

/-- The event of an arrival, unless it is superseded by what arrives next. -/
def Arrival.survivor? (rest : List Arrival) : Arrival → Option PointerEvent
  | .keep m => if isSuperseded m rest then none else some (.move m)
  | a => a.event?

/-- The events that arrive and are not superseded. -/
def survivors : List Arrival → List PointerEvent
  | [] => []
  | a :: rest => (a.survivor? rest).toList ++ survivors rest

theorem isSuperseded_iff : isSuperseded m as = true ↔ ∃ (j : Nat) (a : Arrival),
    as[j]? = some a ∧ a.replaces m = true ∧
      ∀ (k : Nat) (b : Arrival), k < j → as[k]? = some b → b.ends m.pointer = false := by
  induction as with
  | nil => simp [isSuperseded]
  | cons a as ih =>
    unfold isSuperseded
    constructor
    · intro h
      split at h
      · exact ⟨0, a, rfl, h, fun k b hk => absurd hk (Nat.not_lt_zero k)⟩
      · next ha =>
        obtain ⟨j, b, hb, hr, hbefore⟩ := ih.mp h
        refine ⟨j + 1, b, hb, hr, fun k c hk hc => ?_⟩
        cases k with
        | zero =>
          cases hc
          exact Bool.eq_false_iff.mpr ha
        | succ k => exact hbefore k c (Nat.lt_of_succ_lt_succ hk) hc
    · rintro ⟨j, b, hb, hr, hbefore⟩
      cases j with
      | zero =>
        cases hb
        rw [if_pos (Arrival.ends_of_replaces hr)]
        exact hr
      | succ j =>
        rw [if_neg (by rw [hbefore 0 a (Nat.succ_pos j) rfl]; simp)]
        exact ih.mpr ⟨j, b, hb, hr, fun k c hk hc => hbefore (k + 1) c (Nat.succ_lt_succ hk) hc⟩

theorem superseded_cons_zero :
    Superseded (.keep m :: as) 0 ↔ isSuperseded m as = true := by
  rw [isSuperseded_iff]
  constructor
  · rintro ⟨j, h⟩
    cases j with
    | zero => exact absurd h not_supersedes_zero
    | succ j =>
      obtain ⟨m', a, hw, ha, hr⟩ := h
      obtain ⟨heq, hbefore⟩ := waits_cons_zero.mp hw
      cases heq
      exact ⟨j, a, ha, hr, fun k b hk hb => hbefore k b (by rw [List.getElem?_take_of_lt hk, hb])⟩
  · rintro ⟨j, a, ha, hr, hbefore⟩
    refine ⟨j + 1, m, a, waits_cons_zero.mpr ⟨rfl, fun k b hb => ?_⟩, ha, hr⟩
    rw [List.getElem?_take] at hb
    split at hb
    · next hk => exact hbefore k b hk hb
    · cases hb

theorem survivor?_eq_some {e : PointerEvent} : a.survivor? as = some e ↔
    a.event? = some e ∧ ¬Superseded (a :: as) 0 := by
  have kept : (∀ m, a ≠ .keep m) → ¬Superseded (a :: as) 0 := fun ha h => by
    obtain ⟨m, hm⟩ := exists_keep_of_superseded h
    exact ha m (Option.some.inj hm)
  cases a with
  | keep m =>
    rw [superseded_cons_zero]
    cases h : isSuperseded m as <;> simp [Arrival.survivor?, Arrival.event?, h]
  | behind e => simp [Arrival.survivor?, kept]
  | flush => simp [Arrival.survivor?, Arrival.event?]
  | other => simp [Arrival.survivor?, Arrival.event?]

/-- Of a list of positions, those behind one more arrival. -/
theorem mem_shifted {kept : List Nat}
    (mem : ∀ i, i ∈ kept ↔ (∃ e, eventAt as i = some e ∧ e.pointer = p) ∧ ¬Superseded as i)
    (i : Nat) : i + 1 ∈ kept.map Nat.succ ↔
      (∃ e, eventAt (a :: as) (i + 1) = some e ∧ e.pointer = p) ∧
        ¬Superseded (a :: as) (i + 1) := by
  have shift : i + 1 ∈ kept.map Nat.succ ↔ i ∈ kept := by simp
  rw [superseded_cons_succ, shift]
  exact mem i

theorem filterMap_shifted (kept : List Nat) :
    (kept.map Nat.succ).filterMap (eventAt (a :: as)) = kept.filterMap (eventAt as) := by
  rw [List.filterMap_map]
  rfl

namespace KeptOf

variable {events : List PointerEvent} {e : PointerEvent}

/-- An arrival in front that is not of the pointer, or is superseded. -/
theorem skip (h : KeptOf p as events)
    (ha : ∀ e, a.event? = some e → e.pointer = p → Superseded (a :: as) 0) :
    KeptOf p (a :: as) events := by
  obtain ⟨kept, ascending, mem, heq⟩ := h
  refine ⟨kept.map Nat.succ, List.pairwise_map.mpr (ascending.imp Nat.succ_lt_succ),
    fun i => ?_, by rw [filterMap_shifted, heq]⟩
  cases i with
  | zero =>
    refine ⟨fun h => by simp at h, ?_⟩
    rintro ⟨⟨e, he, hp⟩, hn⟩
    exact absurd (ha e he hp) hn
  | succ i => exact mem_shifted mem i

/-- An arrival in front that is of the pointer, and is not superseded. -/
theorem cons (h : KeptOf p as events) (he : a.event? = some e) (hp : e.pointer = p)
    (hn : ¬Superseded (a :: as) 0) : KeptOf p (a :: as) (e :: events) := by
  obtain ⟨kept, ascending, mem, heq⟩ := h
  refine ⟨0 :: kept.map Nat.succ, List.pairwise_cons.mpr
    ⟨by simp, List.pairwise_map.mpr (ascending.imp Nat.succ_lt_succ)⟩, fun i => ?_, ?_⟩
  · cases i with
    | zero => exact ⟨fun _ => ⟨⟨e, he, hp⟩, hn⟩, fun _ => List.mem_cons_self⟩
    | succ i =>
      rw [← mem_shifted mem i]
      simp
  · have head : eventAt (a :: as) 0 = some e := he
    rw [List.filterMap_cons_some head, filterMap_shifted, heq]

end KeptOf

theorem keptOf_survivors (p : PointerId) (as : List Arrival) :
    KeptOf p as ((survivors as).filter (PointerEvent.isOf p)) := by
  induction as with
  | nil => exact ⟨[], List.Pairwise.nil, by simp [eventAt], rfl⟩
  | cons a as ih =>
    rw [survivors, List.filter_append]
    cases hs : a.survivor? as with
    | none =>
      refine ih.skip fun e he hp => Classical.byContradiction fun hn => ?_
      rw [survivor?_eq_some.mpr ⟨he, hn⟩] at hs
      cases hs
    | some e =>
      obtain ⟨he, hn⟩ := survivor?_eq_some.mp hs
      by_cases hp : e.pointer = p
      · have head : [e].filter (PointerEvent.isOf p) = [e] := by simp [PointerEvent.isOf, hp]
        rw [Option.toList_some, head]
        exact ih.cons he hp hn
      · have head : [e].filter (PointerEvent.isOf p) = [] := by simp [PointerEvent.isOf, hp]
        rw [Option.toList_some, head]
        refine ih.skip fun e' he' hp' => ?_
        cases he.symm.trans he'
        exact absurd hp' hp

/-! ## The last event of a pointer -/

/-- A move is superseded by an event of the same pointer only. -/
theorem exists_event_of_isSuperseded (h : isSuperseded m as = true) :
    ∃ e ∈ as.filterMap Arrival.event?, PointerEvent.isOf m.pointer e = true := by
  obtain ⟨j, a, ha, hr, -⟩ := isSuperseded_iff.mp h
  cases a with
  | keep m' =>
    simp only [Arrival.replaces, Bool.and_eq_true] at hr
    exact ⟨.move m', List.mem_filterMap.mpr ⟨_, List.mem_of_getElem? ha, rfl⟩, hr.1⟩
  | behind e => cases hr
  | flush => cases hr
  | other => cases hr

/-- Whatever is superseded, the last event of a pointer is not. -/
theorem getLast?_survivors (p : PointerId) (as : List Arrival) :
    ((survivors as).filter (PointerEvent.isOf p)).getLast? =
      ((as.filterMap Arrival.event?).filter (PointerEvent.isOf p)).getLast? := by
  induction as with
  | nil => rfl
  | cons a as ih =>
    have split : (a :: as).filterMap Arrival.event? =
        a.event?.toList ++ as.filterMap Arrival.event? := by
      rw [List.filterMap_cons]
      cases a.event? <;> rfl
    rw [survivors, split, List.filter_append, List.filter_append, List.getLast?_append,
      List.getLast?_append, ih]
    cases hlast : ((as.filterMap Arrival.event?).filter (PointerEvent.isOf p)).getLast? with
    | some e => rfl
    | none =>
      rw [Option.none_or, Option.none_or]
      have none_left : ∀ e ∈ as.filterMap Arrival.event?, PointerEvent.isOf p e = false := by
        simpa [List.filter_eq_nil_iff] using List.getLast?_eq_none_iff.mp hlast
      cases a with
      | keep m =>
        cases hm : isSuperseded m as with
        | false => simp [Arrival.survivor?, Arrival.event?, hm]
        | true =>
          -- what supersedes it is an event of its pointer, so it is not of this one
          obtain ⟨e, he, hp⟩ := exists_event_of_isSuperseded hm
          have other : PointerEvent.isOf p (.move m) = false := by
            cases hof : PointerEvent.isOf p (.move m) with
            | false => rfl
            | true =>
              have same : m.pointer = p := of_decide_eq_true hof
              rw [same] at hp
              exact absurd hp (by simp [none_left e he])
          simp [Arrival.survivor?, Arrival.event?, hm, other]
      | behind e => rfl
      | flush => rfl
      | other => rfl

end TabHost
