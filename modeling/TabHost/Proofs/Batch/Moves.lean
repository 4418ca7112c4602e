import TabHost.Batch.Moves

/-!
# The moves that a batch keeps back

A batch holds at most one record for each pointer (`MoveBatch.Distinct`), so what it keeps
back of a pointer is one move or none (`MoveBatch.held?`). A move that is added is held from
then on, in the place of the move that it supersedes or in a record of its own
(`held?_add`); the move that it displaces is queued (`queue_add`). What a flush queues of a
pointer is the move that is held (`filter_held`).
-/

set_option linter.unusedSectionVars false

namespace TabHost

/-- Whether an event is one of a pointer. -/
def PointerEvent.isOf (p : PointerId) (e : PointerEvent) : Bool := e.pointer = p

namespace MoveBatch

variable {policy : MergePolicy} {b : MoveBatch} {m : PointerMove} {p : PointerId}

/-- There is at most one record for each pointer. -/
def Distinct (b : MoveBatch) : Prop :=
  b.pending.Pairwise fun r r' => r.event.pointer ≠ r'.event.pointer

/-- The move of a pointer that is kept back. -/
def held? (p : PointerId) (b : MoveBatch) : Option PointerMove :=
  (b.record? p).map MoveRecord.event

/-- The event that a move displaces when it is added. -/
def displaced (policy : MergePolicy) (m : PointerMove) (b : MoveBatch) : List PointerEvent :=
  match b.held? m.pointer with
  | none => []
  | some older => if policy older m then [] else [.move older]

/-- What is kept back, as events in the order in which a flush queues them. -/
def held (b : MoveBatch) : List PointerEvent := b.pending.map MoveRecord.toEvent

theorem pointer_of_record? {r : MoveRecord} (h : b.record? p = some r) : r.event.pointer = p := by
  simpa using List.find?_some h

theorem pointer_of_held? {older : PointerMove} (h : b.held? p = some older) :
    older.pointer = p := by
  obtain ⟨r, hr, rfl⟩ := Option.map_eq_some_iff.mp h
  exact pointer_of_record? hr

theorem ne_of_record?_eq_none (h : b.record? p = none) {r : MoveRecord} (hr : r ∈ b.pending) :
    r.event.pointer ≠ p := by
  have := List.find?_eq_none.mp h r hr
  simpa using this

/-! ## A list of records -/

/-- Of the records, just those of other pointers stand before and behind the one of a
pointer. -/
theorem record?_split {r : MoveRecord} (hd : b.Distinct) (h : b.record? p = some r) :
    ∃ older newer, b.pending = older ++ r :: newer ∧ (∀ x ∈ older, x.event.pointer ≠ p) ∧
      ∀ x ∈ newer, x.event.pointer ≠ p := by
  obtain ⟨hr, older, newer, heq, hbefore⟩ := List.find?_eq_some_iff_append.mp h
  refine ⟨older, newer, heq, fun x hx => by simpa using hbefore x hx, fun x hx => ?_⟩
  rw [Distinct, heq] at hd
  have := List.rel_of_pairwise_cons (List.pairwise_append.mp hd).2.1 hx
  rw [of_decide_eq_true hr] at this
  exact Ne.symm this

theorem find?_append_singleton {rs : List MoveRecord} {r : MoveRecord}
    (h : ∀ r' ∈ rs, r'.event.pointer ≠ r.event.pointer) :
    (rs ++ [r]).find? (fun r => r.event.pointer = p) =
      if p = r.event.pointer then some r else rs.find? fun r => r.event.pointer = p := by
  rw [List.find?_append]
  split
  · next hp =>
    have : rs.find? (fun r => r.event.pointer = p) = none :=
      List.find?_eq_none.mpr fun r' hr' => by simpa [hp] using h r' hr'
    rw [this]
    simp [hp]
  · next hp =>
    have : ([r] : List MoveRecord).find? (fun r => r.event.pointer = p) = none := by
      simp [Ne.symm hp]
    rw [this, Option.or_none]

theorem find?_filter_ne {rs : List MoveRecord} {q : PointerId} (h : p ≠ q) :
    (rs.filter fun r => r.event.pointer ≠ q).find? (fun r => r.event.pointer = p) =
      rs.find? fun r => r.event.pointer = p := by
  rw [List.find?_filter]
  congr 1
  funext r
  by_cases hr : r.event.pointer = p <;> simp [hr, h]

theorem find?_map_replace {rs : List MoveRecord} :
    (rs.map fun r => if r.event.pointer = m.pointer then r.replace m else r).find?
        (fun r => r.event.pointer = p) =
      (rs.find? fun r => r.event.pointer = p).map fun r =>
        if r.event.pointer = m.pointer then r.replace m else r := by
  have same : ((fun r : MoveRecord => decide (r.event.pointer = p)) ∘ fun r =>
      if r.event.pointer = m.pointer then r.replace m else r) = fun r =>
        decide (r.event.pointer = p) := by
    funext r
    by_cases hr : r.event.pointer = m.pointer <;> simp [MoveRecord.replace, hr]
  rw [List.find?_map, same]

/-! ## Adding a move -/

theorem pending_add_of_fresh (h : b.record? m.pointer = none) :
    (b.add policy m).pending = b.pending ++ [{ event := m }] := by
  simp [add, h]

theorem pending_add_of_replaced {r : MoveRecord} (h : b.record? m.pointer = some r)
    (hp : policy r.event m = true) : (b.add policy m).pending =
      b.pending.map fun r => if r.event.pointer = m.pointer then r.replace m else r := by
  simp [add, h, hp]

theorem pending_add_of_displaced {r : MoveRecord} (h : b.record? m.pointer = some r)
    (hp : policy r.event m = false) : (b.add policy m).pending =
      b.pending.filter (fun r => r.event.pointer ≠ m.pointer) ++ [{ event := m }] := by
  simp [add, h, hp]

/-- A move that is added is held from then on, and the moves of other pointers stay. -/
theorem held?_add : (b.add policy m).held? p = if p = m.pointer then some m else b.held? p := by
  unfold add held?
  cases hr : b.record? m.pointer with
  | none =>
    have fresh : ∀ r ∈ b.pending, r.event.pointer ≠ m.pointer := fun r hm =>
      ne_of_record?_eq_none hr hm
    simp only [record?]
    rw [find?_append_singleton fresh]
    split <;> rfl
  | some r =>
    have hp := pointer_of_record? hr
    dsimp only
    split
    · simp only [record?] at hr ⊢
      rw [find?_map_replace]
      by_cases h : p = m.pointer
      · simp [h, hr, hp, MoveRecord.replace]
      · rw [if_neg h, Option.map_map]
        cases hq : b.pending.find? fun r => r.event.pointer = p with
        | none => rfl
        | some r' =>
          have hp' : r'.event.pointer = p := by simpa using List.find?_some hq
          simp [hp', h]
    · simp only [record?]
      rw [find?_append_singleton fun r' hr' => by simpa using (List.mem_filter.mp hr').2]
      split
      · rfl
      · next h => rw [find?_filter_ne h]

/-- The queue gets what a move displaces. -/
theorem queue_add : (b.add policy m).queue = b.queue ++ b.displaced policy m := by
  unfold add displaced held?
  cases b.record? m.pointer with
  | none => simp
  | some r =>
    dsimp only [Option.map_some]
    split <;> simp [MoveRecord.toEvent]

theorem distinct_add (h : b.Distinct) : (b.add policy m).Distinct := by
  unfold add
  cases hr : b.record? m.pointer with
  | none =>
    refine List.pairwise_append.mpr ⟨h, List.pairwise_singleton _ _, fun r hm r' hm' => ?_⟩
    rw [List.mem_singleton.mp hm']
    exact ne_of_record?_eq_none hr hm
  | some r =>
    dsimp only
    split
    · refine List.pairwise_map.mpr (h.imp fun {r r'} hne => ?_)
      have same : ∀ r : MoveRecord,
          (if r.event.pointer = m.pointer then r.replace m else r).event.pointer =
            r.event.pointer := by
        intro r
        split
        · next hp => exact hp.symm
        · rfl
      rw [same, same]
      exact hne
    · refine List.pairwise_append.mpr ⟨h.filter _, List.pairwise_singleton _ _,
        fun r hm r' hm' => ?_⟩
      rw [List.mem_singleton.mp hm']
      simpa using (List.mem_filter.mp hm).2

theorem distinct_empty (queue : List PointerEvent) :
    Distinct { pending := [], queue := queue } := List.Pairwise.nil

/-! ## What a flush queues -/

theorem filter_map_toEvent {rs : List MoveRecord}
    (h : rs.Pairwise fun r r' => r.event.pointer ≠ r'.event.pointer) :
    (rs.map MoveRecord.toEvent).filter (PointerEvent.isOf p) =
      ((rs.find? fun r => r.event.pointer = p).map MoveRecord.event).toList.map .move := by
  induction rs with
  | nil => rfl
  | cons r rest ih =>
    obtain ⟨hr, hrest⟩ := List.pairwise_cons.mp h
    have ih := ih hrest
    rw [List.map_cons, List.find?_cons]
    by_cases hp : r.event.pointer = p
    · have others : rest.find? (fun r => r.event.pointer = p) = none :=
        List.find?_eq_none.mpr fun r' hr' => by simpa [← hp] using Ne.symm (hr r' hr')
      rw [others] at ih
      have head : PointerEvent.isOf p r.toEvent = true := decide_eq_true hp
      rw [List.filter_cons_of_pos head, ih, decide_eq_true hp]
      rfl
    · have head : ¬ PointerEvent.isOf p r.toEvent = true := fun h => hp (of_decide_eq_true h)
      rw [List.filter_cons_of_neg head, ih, decide_eq_false hp]

/-- What is kept back of a pointer is the move that is held. -/
theorem filter_held (h : b.Distinct) :
    b.held.filter (PointerEvent.isOf p) = (b.held? p).toList.map .move :=
  filter_map_toEvent h

end MoveBatch

end TabHost
