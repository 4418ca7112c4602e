import TabHost.Proofs.Batch.Supersession

/-!
# A batch that dispatches nothing

A batch that dispatches nothing collects in its queue all that is ever ready for dispatch
(`MoveBatch.after`). Of the arrivals of a pointer it drops just the superseded ones, and
keeps the others in their order (`MoveBatch.keptOf_after`).
-/

set_option linter.unusedSectionVars false

namespace TabHost

namespace MoveBatch

variable {b b' : MoveBatch} {as : List Arrival} {a : Arrival} {m : PointerMove} {p : PointerId}

/-- What an arrival makes of a batch, before anything is dispatched. -/
def next (b : MoveBatch) : Arrival → MoveBatch
  | .keep m => b.add PointerMove.sameButtons m
  | .behind e => b.flush.enqueue e
  | .flush => b.flush
  | .other => b

/-- A batch after some arrivals, with nothing dispatched. -/
def after (b : MoveBatch) (as : List Arrival) : MoveBatch := as.foldl next b

/-- What an arrival makes ready for dispatch. -/
def ready (b : MoveBatch) : Arrival → List PointerEvent
  | .keep m => b.displaced PointerMove.sameButtons m
  | .behind e => b.held ++ [e]
  | .flush => b.held
  | .other => []

theorem queue_next (b : MoveBatch) (a : Arrival) : (b.next a).queue = b.queue ++ b.ready a := by
  cases a with
  | keep m => exact queue_add
  | behind e => exact List.append_assoc _ _ _
  | flush => rfl
  | other => exact (List.append_nil _).symm

theorem distinct_next (h : b.Distinct) (a : Arrival) : (b.next a).Distinct := by
  cases a with
  | keep m => exact distinct_add h
  | behind e => exact distinct_empty _
  | flush => exact distinct_empty _
  | other => exact h

theorem distinct_after (h : b.Distinct) (as : List Arrival) : (b.after as).Distinct := by
  induction as generalizing b with
  | nil => exact h
  | cons a as ih => exact ih (distinct_next h a)

/-- What is ready, and what is kept back then, depend on what is kept back only. -/
theorem ready_congr (h : b'.pending = b.pending) (a : Arrival) : b'.ready a = b.ready a := by
  obtain ⟨pending, queue⟩ := b
  obtain ⟨pending', queue'⟩ := b'
  cases h
  cases a <;> rfl

theorem pending_next_congr (h : b'.pending = b.pending) (a : Arrival) :
    (b'.next a).pending = (b.next a).pending := by
  obtain ⟨pending, queue⟩ := b
  obtain ⟨pending', queue'⟩ := b'
  cases h
  cases a with
  | keep m =>
    simp only [next, add, record?]
    cases List.find? (fun r => decide (r.event.pointer = m.pointer)) pending with
    | none => rfl
    | some r => cases h : r.event.sameButtons m <;> simp [h]
  | behind e => rfl
  | flush => rfl
  | other => rfl

/-- The moves of a pointer that are kept back, but for one that is superseded by what
arrives next. -/
def lasting (p : PointerId) (as : List Arrival) (b : MoveBatch) : List PointerEvent :=
  ((b.held? p).toList.filter fun m => !isSuperseded m as).map .move

theorem lasting_of_held?_eq_none (h : b.held? p = none) : b.lasting p as = [] := by
  rw [lasting, h]
  rfl

/-- Nothing that a batch keeps back is superseded by something that ends all waiting. -/
theorem lasting_of_ends (hd : b.Distinct) (ha : ∀ m : PointerMove, a.ends m.pointer = true)
    (hr : ∀ m, a.replaces m = false) :
    b.lasting p (a :: as) = b.held.filter (PointerEvent.isOf p) := by
  rw [lasting, filter_held hd]
  congr 1
  refine List.filter_eq_self.mpr fun m _ => ?_
  rw [isSuperseded, if_pos (ha m), hr m]
  rfl

/-- A move that may be kept back makes the older one of its pointer ready, or supersedes
it. -/
theorem filter_next_keep (as : List Arrival) :
    (b.ready (.keep m)).filter (PointerEvent.isOf m.pointer) ++
        (b.next (.keep m)).lasting m.pointer as =
      b.lasting m.pointer (.keep m :: as) ++
        ((Arrival.keep m).survivor? as).toList.filter (PointerEvent.isOf m.pointer) := by
  have held : (b.next (.keep m)).held? m.pointer = some m := by
    rw [next, held?_add, if_pos rfl]
  have survives : (b.next (.keep m)).lasting m.pointer as =
      ((Arrival.keep m).survivor? as).toList.filter (PointerEvent.isOf m.pointer) := by
    rw [lasting, held, Arrival.survivor?]
    cases h : isSuperseded m as <;> simp [h, PointerEvent.isOf, PointerEvent.pointer]
  rw [survives]
  congr 1
  simp only [ready, displaced, lasting]
  cases hh : b.held? m.pointer with
  | none => rfl
  | some older =>
    have hp := pointer_of_held? hh
    have ends : (Arrival.keep m).ends older.pointer = true := by simp [Arrival.ends, hp]
    have replaces : (Arrival.keep m).replaces older = older.sameButtons m := by
      simp [Arrival.replaces, hp]
    have hof : PointerEvent.isOf m.pointer (.move older) = true := decide_eq_true hp
    cases h : older.sameButtons m <;> simp [isSuperseded, ends, replaces, h, hof]

/-- A move that may be kept back is no concern of the other pointers. -/
theorem filter_next_keep_of_ne (hp : m.pointer ≠ p) (as : List Arrival) :
    (b.ready (.keep m)).filter (PointerEvent.isOf p) ++ (b.next (.keep m)).lasting p as =
      b.lasting p (.keep m :: as) ++
        ((Arrival.keep m).survivor? as).toList.filter (PointerEvent.isOf p) := by
  have held : (b.next (.keep m)).held? p = b.held? p := by
    rw [next, held?_add, if_neg (Ne.symm hp)]
  have ready : (b.ready (.keep m)).filter (PointerEvent.isOf p) = [] := by
    simp only [MoveBatch.ready, displaced]
    cases hh : b.held? m.pointer with
    | none => rfl
    | some older =>
      have hof : PointerEvent.isOf p (.move older) = false := by
        simp [PointerEvent.isOf, PointerEvent.pointer, pointer_of_held? hh, hp]
      cases h : older.sameButtons m <;> simp [h, hof]
  have survivor : ((Arrival.keep m).survivor? as).toList.filter (PointerEvent.isOf p) = [] := by
    rw [Arrival.survivor?]
    cases isSuperseded m as <;> simp [PointerEvent.isOf, PointerEvent.pointer, hp]
  rw [ready, survivor, List.nil_append, List.append_nil, lasting, lasting, held]
  congr 1
  refine List.filter_congr fun older ho => ?_
  have hne : ¬m.pointer = older.pointer := by
    rw [pointer_of_held? (Option.mem_toList.mp ho)]
    exact hp
  simp [isSuperseded, Arrival.ends, hne]

/-- Of the events of a pointer, an arrival changes just which of them are ready. -/
theorem filter_next (hd : b.Distinct) (a : Arrival) (as : List Arrival) (p : PointerId) :
    (b.ready a).filter (PointerEvent.isOf p) ++ (b.next a).lasting p as =
      b.lasting p (a :: as) ++ (a.survivor? as).toList.filter (PointerEvent.isOf p) := by
  cases a with
  | keep m =>
    by_cases hp : m.pointer = p
    · subst hp
      exact filter_next_keep as
    · exact filter_next_keep_of_ne hp as
  | behind e =>
    rw [lasting_of_ends hd (fun _ => rfl) fun _ => rfl, lasting_of_held?_eq_none rfl,
      List.append_nil]
    exact List.filter_append _ _
  | flush =>
    rw [lasting_of_ends hd (fun _ => rfl) fun _ => rfl, lasting_of_held?_eq_none rfl]
    rfl
  | other =>
    have same : b.lasting p (.other :: as) = b.lasting p as := rfl
    rw [same]
    exact (List.append_nil _).symm

/-- Of the events of a pointer, a batch drops those that are superseded, and no others. -/
theorem filter_after (hd : b.Distinct) (as : List Arrival) (p : PointerId) :
    ((b.after as).queue ++ (b.after as).held).filter (PointerEvent.isOf p) =
      b.queue.filter (PointerEvent.isOf p) ++ b.lasting p as ++
        (survivors as).filter (PointerEvent.isOf p) := by
  induction as generalizing b with
  | nil =>
    have lasting : b.lasting p [] = b.held.filter (PointerEvent.isOf p) := by
      rw [lasting, filter_held hd]
      congr 1
      exact List.filter_eq_self.mpr fun _ _ => rfl
    rw [lasting, List.filter_append]
    exact (List.append_nil _).symm
  | cons a as ih =>
    calc ((b.after (a :: as)).queue ++ (b.after (a :: as)).held).filter (PointerEvent.isOf p)
      _ = (b.next a).queue.filter (PointerEvent.isOf p) ++ (b.next a).lasting p as ++
            (survivors as).filter (PointerEvent.isOf p) := ih (distinct_next hd a)
      _ = b.queue.filter (PointerEvent.isOf p) ++
            ((b.ready a).filter (PointerEvent.isOf p) ++ (b.next a).lasting p as) ++
            (survivors as).filter (PointerEvent.isOf p) := by
          rw [queue_next, List.filter_append, List.append_assoc (b.queue.filter _)]
      _ = b.queue.filter (PointerEvent.isOf p) ++ b.lasting p (a :: as) ++
            (survivors (a :: as)).filter (PointerEvent.isOf p) := by
          rw [filter_next hd, survivors, List.filter_append]
          simp only [List.append_assoc]

/-- What a new batch has queued or keeps back of a pointer is all that arrived, but for
the superseded moves. -/
theorem keptOf_after (p : PointerId) (as : List Arrival) : KeptOf p as
    (((({} : MoveBatch).after as).queue ++ (({} : MoveBatch).after as).held).filter
      (PointerEvent.isOf p)) := by
  rw [filter_after (distinct_empty [])]
  exact keptOf_survivors p as

end MoveBatch

end TabHost
