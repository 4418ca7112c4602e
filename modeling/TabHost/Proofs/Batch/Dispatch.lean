import TabHost.Proofs.Batch.Order

/-!
# Overtaken records

A batch that dispatches nothing accounts for every start just once, by what it has queued
and by what it keeps back (`MoveBatch.dated_after`). What it keeps back stands in the order
of the starts (`MoveBatch.startedInOrder_after`). So does all of it, what is queued in front,
unless a move displaced the record of its pointer while an older one of another pointer was
kept back (`Overtaken`): the displaced record is queued at once, and the older one is not
(`MoveBatch.followsStarts_after`).

Events may be alike, so they may go through the starts in more than one way. But those of one
pointer are never out of order, and that leaves one way only (`Timeline.unique`).
-/

set_option linter.unusedSectionVars false

namespace TabHost

/-- A move displaces the record of its pointer while the oldest record is one of another
pointer. -/
def MoveBatch.Overtakes (b : MoveBatch) (m : PointerMove) : Prop :=
  b.displaces PointerMove.sameButtons m = true ∧
    ∃ r, b.pending.head? = some r ∧ r.event.pointer ≠ m.pointer

/-- Some record was displaced while an older one of another pointer was kept back. -/
def Overtaken (as : List Arrival) : Prop :=
  ∃ i m, as[i]? = some (.keep m) ∧ (({} : MoveBatch).after (as.take i)).Overtakes m

/-- Events go through all that was started: each of them stands for what was started at its
position, and every start has just one of them. -/
structure Timeline (as : List Arrival) (events : List PointerEvent)
    (line : List (Nat × PointerEvent)) : Prop where
  events : line.map Prod.snd = events
  standsFor : ∀ x ∈ line, StandsFor as x.1 x.2
  once : (line.map Prod.fst).Nodup
  every : ∀ i, Opens as i → i ∈ line.map Prod.fst

/-- Events go through all that was started, in the order of the starts. -/
def FollowsStarts (as : List Arrival) (events : List PointerEvent) : Prop :=
  ∃ line, Timeline as events line ∧ (line.map Prod.fst).Pairwise (· < ·)

/-- Whether the event that arrives at a position is of a pointer. -/
def startsOf (as : List Arrival) (p : PointerId) (i : Nat) : Bool := pointerAt as i = some p

variable {as : List Arrival} {a : Arrival} {m : PointerMove} {r : MoveRecord}
  {e : PointerEvent} {p : PointerId} {i : Nat}

/-! ## One timeline only -/

/-- Events with positions, which are alike but for the positions, and of each pointer alike. -/
theorem eq_of_forall_pointer {line line' : List (Nat × PointerEvent)}
    (events : line.map Prod.snd = line'.map Prod.snd)
    (each : ∀ p, (line.filter fun x => x.2.isOf p).map Prod.fst =
      (line'.filter fun x => x.2.isOf p).map Prod.fst) : line = line' := by
  induction line generalizing line' with
  | nil => exact (List.map_eq_nil_iff.mp events.symm).symm
  | cons x line ih =>
    obtain ⟨x', line', rfl, event, events⟩ := List.map_eq_cons_iff.mp events.symm
    have own : x.2.isOf x.2.pointer = true := decide_eq_true rfl
    have first := each x.2.pointer
    simp only [List.filter_cons, event, own, if_true, List.map_cons] at first
    have rest : line = line' := by
      refine ih events.symm fun p => ?_
      have all := each p
      cases hp : x.2.isOf p with
      | true =>
        simp only [List.filter_cons, event, hp, if_true, List.map_cons] at all
        exact (List.cons.inj all).2
      | false =>
        simp only [List.filter_cons, event, hp, Bool.false_eq_true, if_false] at all
        exact all
    rw [rest, Prod.ext (List.cons.inj first).1 event.symm]

namespace Timeline

variable {events : List PointerEvent} {line line' : List (Nat × PointerEvent)}

theorem mem_iff (h : Timeline as events line) : i ∈ line.map Prod.fst ↔ Opens as i := by
  refine ⟨fun hi => ?_, h.every i⟩
  obtain ⟨x, hx, rfl⟩ := List.mem_map.mp hi
  exact (h.standsFor x hx).opens

theorem map_fst_filter (h : Timeline as events line) (p : PointerId) :
    (line.filter fun x => x.2.isOf p).map Prod.fst =
      (line.map Prod.fst).filter (startsOf as p) := by
  rw [List.filter_map]
  congr 1
  refine List.filter_congr fun x hx => ?_
  simp [startsOf, (h.standsFor x hx).pointerAt, PointerEvent.isOf]

/-- Events go through the starts in one way only, if those of each pointer are in order. -/
theorem unique (h : Timeline as events line) (h' : Timeline as events line')
    (each : ∀ p, ((line.map Prod.fst).filter (startsOf as p)).Pairwise (· < ·))
    (each' : ∀ p, ((line'.map Prod.fst).filter (startsOf as p)).Pairwise (· < ·)) :
    line = line' := by
  refine eq_of_forall_pointer (h.events.trans h'.events.symm) fun p => ?_
  rw [h.map_fst_filter, h'.map_fst_filter]
  have same : (line.map Prod.fst).Perm (line'.map Prod.fst) :=
    (List.perm_ext_iff_of_nodup h.once h'.once).mpr fun i => h.mem_iff.trans h'.mem_iff.symm
  exact (same.filter _).eq_of_pairwise (fun i j _ _ hi hj => absurd (Nat.lt_trans hi hj)
    (Nat.lt_irrefl i)) (each p) (each' p)

end Timeline

/-! ## Starts and overtaking -/

/-- What is started was started before, or is started by the last arrival. -/
theorem Opens.of_concat (h : Opens (as ++ [a]) i) : Opens as i ∨ i = as.length := by
  obtain ⟨⟨e, he⟩, first⟩ := h
  have hi := lt_of_eventAt he
  rw [List.length_append, List.length_singleton] at hi
  rcases Nat.lt_or_ge i as.length with hlt | hge
  · rw [eventAt_concat hlt] at he
    exact Or.inl ⟨⟨e, he⟩, fun k hs => first k ((supersedes_concat hlt).mpr hs)⟩
  · exact Or.inr (by omega)

theorem overtaken_concat : Overtaken (as ++ [a]) ↔
    Overtaken as ∨ ∃ m, a = .keep m ∧ (({} : MoveBatch).after as).Overtakes m := by
  constructor
  · rintro ⟨i, m, hm, ho⟩
    have hi := (List.getElem?_eq_some_iff.mp hm).1
    rw [List.length_append, List.length_singleton] at hi
    rcases Nat.lt_or_ge i as.length with hlt | hge
    · rw [List.getElem?_append_left hlt] at hm
      rw [List.take_append_of_le_length (Nat.le_of_lt hlt)] at ho
      exact Or.inl ⟨i, m, hm, ho⟩
    · obtain rfl : i = as.length := by omega
      rw [List.getElem?_concat_length] at hm
      rw [List.take_left] at ho
      exact Or.inr ⟨m, Option.some.inj hm, ho⟩
  · rintro (⟨i, m, hm, ho⟩ | ⟨m, rfl, ho⟩)
    · have hlt := (List.getElem?_eq_some_iff.mp hm).1
      refine ⟨i, m, by rw [List.getElem?_append_left hlt, hm], ?_⟩
      rw [List.take_append_of_le_length (Nat.le_of_lt hlt)]
      exact ho
    · exact ⟨as.length, m, List.getElem?_concat_length, by rw [List.take_left]; exact ho⟩

theorem overtaken_concat_of_not
    (h : ∀ m, a = .keep m → ¬(({} : MoveBatch).after as).Overtakes m) :
    Overtaken (as ++ [a]) ↔ Overtaken as := by
  rw [overtaken_concat, or_iff_left]
  rintro ⟨m, rfl, hm⟩
  exact h m rfl hm

theorem pairwise_lt_concat {ds : List Nat} {n : Nat} (h : ∀ i ∈ ds, i < n) :
    (ds ++ [n]).Pairwise (· < ·) ↔ ds.Pairwise (· < ·) := by
  rw [List.pairwise_append]
  constructor
  · exact fun hd => hd.1
  · exact fun hd => ⟨hd, List.pairwise_singleton _ _, by simpa using h⟩

/-- Of ascending positions, only the first can go in front of the others. -/
theorem pairwise_lt_to_front {ds front back : List Nat} {i : Nat}
    (h : (front ++ i :: back).Pairwise (· < ·)) :
    (ds ++ i :: (front ++ back)).Pairwise (· < ·) ↔
      (ds ++ (front ++ i :: back)).Pairwise (· < ·) ∧ front = [] := by
  cases front with
  | nil => simp
  | cons f front =>
    refine iff_of_false (fun hd => ?_) (by simp)
    have before : f < i := List.rel_of_pairwise_cons h (by simp)
    have behind : i < f :=
      List.rel_of_pairwise_cons (List.pairwise_append.mp hd).2.1 (by simp)
    omega

/-- The positions of all starts, each once. They ascend as long as nothing was overtaken, and
those of each pointer ascend anyway. -/
structure Dates (as : List Arrival) (ds : List Nat) : Prop where
  lt : ∀ i ∈ ds, i < as.length
  once : ds.Nodup
  every : ∀ i, Opens as i → i ∈ ds
  each : ∀ p, (ds.filter (startsOf as p)).Pairwise (· < ·)
  ascend : ds.Pairwise (· < ·) ↔ ¬Overtaken as

namespace Dates

variable {ds : List Nat}

theorem nil : Dates [] [] :=
  ⟨by simp, List.nodup_nil, fun i h => absurd h.1 (by simp [eventAt]),
    fun p => List.Pairwise.nil,
    iff_of_true List.Pairwise.nil (by rintro ⟨i, m, h, -⟩; cases h)⟩

theorem filter_startsOf_concat (lt : ∀ i ∈ ds, i < as.length) :
    ds.filter (startsOf (as ++ [a]) p) = ds.filter (startsOf as p) :=
  List.filter_congr fun i hi => by rw [startsOf, startsOf, pointerAt_concat (lt i hi)]

/-- An arrival that starts nothing. -/
theorem skip (h : Dates as ds) (ha : ¬Opens (as ++ [a]) as.length)
    (ho : ∀ m, a = .keep m → ¬(({} : MoveBatch).after as).Overtakes m) :
    Dates (as ++ [a]) ds := by
  refine ⟨fun i hi => ?_, h.once, fun i hi => ?_, fun p => ?_, ?_⟩
  · rw [List.length_append]
    exact Nat.lt_add_right _ (h.lt i hi)
  · rcases hi.of_concat with hi | rfl
    · exact h.every i hi
    · exact absurd hi ha
  · rw [filter_startsOf_concat h.lt]
    exact h.each p
  · rw [overtaken_concat_of_not ho]
    exact h.ascend

/-- An arrival that is a start, with the starts before it in an arrangement that keeps those
of each pointer in order. -/
theorem concat {ds' : List Nat} (h : Dates as ds) (same : ds'.Perm ds)
    (each : ∀ p, ds'.filter (startsOf as p) = ds.filter (startsOf as p))
    (ascend : ds'.Pairwise (· < ·) ↔ ¬Overtaken (as ++ [a])) :
    Dates (as ++ [a]) (ds' ++ [as.length]) := by
  have lt : ∀ k ∈ ds', k < as.length := fun k hk => h.lt k (same.mem_iff.mp hk)
  refine ⟨fun k hk => ?_, ?_, fun k hk => ?_, fun p => ?_,
    (pairwise_lt_concat lt).trans ascend⟩
  · rw [List.length_append, List.length_singleton]
    rcases List.mem_append.mp hk with hk | hk
    · exact Nat.lt_succ_of_lt (lt k hk)
    · rw [List.mem_singleton.mp hk]
      exact Nat.lt_succ_self _
  · refine List.nodup_append.mpr ⟨same.nodup_iff.mpr h.once, List.pairwise_singleton _ _, ?_⟩
    intro k hk n hn
    rw [List.mem_singleton.mp hn]
    exact Nat.ne_of_lt (lt k hk)
  · rcases hk.of_concat with hk | rfl
    · exact List.mem_append_left _ (same.mem_iff.mpr (h.every k hk))
    · exact List.mem_append_right _ (List.mem_singleton_self _)
  · rw [List.filter_append, filter_startsOf_concat lt]
    have all : (ds'.filter (startsOf as p) ++ [as.length]).Pairwise (· < ·) :=
      (pairwise_lt_concat fun k hk => lt k (List.mem_filter.mp hk).1).mpr
        (each p ▸ h.each p)
    exact all.sublist (List.filter_sublist.append_left _)

/-- An arrival that is a start, and goes behind all others. -/
theorem behind (h : Dates as ds)
    (ho : ∀ m, a = .keep m → ¬(({} : MoveBatch).after as).Overtakes m) :
    Dates (as ++ [a]) (ds ++ [as.length]) := by
  refine h.concat (.refl ds) (fun p => rfl) ?_
  rw [overtaken_concat_of_not ho]
  exact h.ascend

/-- An arrival that is a start, and sends one of the last starts in front of the others, which
are of other pointers if they were in front of it. -/
theorem displace {front back : List Nat} (h : Dates as (ds ++ (front ++ i :: back)))
    (ascending : (front ++ i :: back).Pairwise (· < ·))
    (others : ∀ k ∈ front, pointerAt as k ≠ pointerAt as i)
    (ho : (({} : MoveBatch).after as).Overtakes m ↔ front ≠ []) :
    Dates (as ++ [.keep m]) (ds ++ i :: (front ++ back) ++ [as.length]) := by
  refine h.concat (List.perm_middle.symm.append_left ds) (fun p => ?_) ?_
  · cases hi : startsOf as p i with
    | false => simp [hi]
    | true =>
      have none : front.filter (startsOf as p) = [] := by
        refine List.filter_eq_nil_iff.mpr fun k hk hs => others k hk ?_
        exact (of_decide_eq_true hs).trans (of_decide_eq_true hi).symm
      simp [hi, none]
  · rw [pairwise_lt_to_front ascending, h.ascend, overtaken_concat, not_or]
    refine and_congr_right fun _ => ?_
    simp [ho]

end Dates

/-! ## A batch that dispatches nothing -/

namespace MoveBatch

/-- What a batch has queued and what it keeps back, with the positions at which it all was
started. -/
structure Dated (as : List Arrival) (b : MoveBatch) (queued : List (Nat × PointerEvent))
    (kept : List (Nat × MoveRecord)) : Prop where
  queue : queued.map Prod.snd = b.queue
  pending : kept.map Prod.snd = b.pending
  done : ∀ x ∈ queued, DoneAs as x.1 x.2
  started : ∀ x ∈ kept, Started as x.1 x.2
  ascending : (kept.map Prod.fst).Pairwise (· < ·)
  dates : Dates as (queued.map Prod.fst ++ kept.map Prod.fst)

variable {b : MoveBatch} {queued : List (Nat × PointerEvent)} {kept : List (Nat × MoveRecord)}

theorem not_overtakes_of_fresh (h : b.record? m.pointer = none) : ¬b.Overtakes m := by
  rintro ⟨hd, -⟩
  simp [displaces, h] at hd

theorem not_overtakes_of_replaced (h : b.record? m.pointer = some r)
    (hp : r.event.sameButtons m = true) : ¬b.Overtakes m := by
  rintro ⟨hd, -⟩
  simp [displaces, h, hp] at hd

theorem overtakes_iff_of_displaced {older newer : List MoveRecord}
    (h : b.record? m.pointer = some r) (hp : r.event.sameButtons m = false)
    (heq : b.pending = older ++ r :: newer) (ho : ∀ x ∈ older, x.event.pointer ≠ m.pointer) :
    b.Overtakes m ↔ older ≠ [] := by
  have hd : b.displaces PointerMove.sameButtons m = true := by simp [displaces, h, hp]
  rw [Overtakes, heq, and_iff_right hd]
  cases older with
  | nil => simp [pointer_of_record? h]
  | cons x rest => simpa using ho x

/-- A move starts a record if it does not replace the one of its pointer. -/
theorem started_new (hr : ∀ r, (({} : MoveBatch).after as).record? m.pointer = some r →
    r.event.sameButtons m = false) : Started (as ++ [.keep m]) as.length { event := m } := by
  refine started_self fun k m' hw => Bool.eq_false_iff.mpr fun hs => ?_
  simp only [Arrival.replaces, Bool.and_eq_true, decide_eq_true_eq] at hs
  have held := held?_of_waits hw
  rw [← hs.1] at held
  obtain ⟨r, hr', rfl⟩ := Option.map_eq_some_iff.mp held
  rw [hr r hr'] at hs
  cases hs.2

/-- A move that is kept back leaves the records of other pointers as they are. -/
theorem started_others {x : Nat × MoveRecord} (h : Started as x.1 x.2)
    (hx : x.2.event.pointer ≠ m.pointer) : Started (as ++ [.keep m]) x.1 x.2 :=
  h.concat (by simpa [Arrival.ends] using Ne.symm hx)

/-- A new record goes behind the others. -/
theorem ascending_concat (h : ∀ x ∈ kept, Started as x.1 x.2)
    (ascending : (kept.map Prod.fst).Pairwise (· < ·)) (r : MoveRecord) :
    ((kept ++ [(as.length, r)]).map Prod.fst).Pairwise (· < ·) := by
  rw [List.map_append]
  refine (pairwise_lt_concat fun i hi => ?_).mpr ascending
  obtain ⟨x, hx, rfl⟩ := List.mem_map.mp hi
  exact (h x hx).lt

namespace Dated

/-- What a record holds waits still. -/
theorem waits (h : Dated as b queued kept) {p : PointerId} (hr : b.record? p = some r) :
    ∃ j, Waits as j r.event := by
  have mem : r ∈ kept.map Prod.snd := h.pending ▸ List.mem_of_find?_eq_some hr
  obtain ⟨x, hx, rfl⟩ := List.mem_map.mp mem
  obtain ⟨-, j, -, hw⟩ := h.started x hx
  exact ⟨j, hw⟩

/-- A move that starts a record of its own, with nothing displaced. -/
theorem fresh (h : Dated as (({} : MoveBatch).after as) queued kept)
    (hr : (({} : MoveBatch).after as).record? m.pointer = none) :
    Dated (as ++ [.keep m]) ((({} : MoveBatch).after as).next (.keep m)) queued
      (kept ++ [(as.length, { event := m })]) := by
  refine ⟨?queue, ?pending, fun x hx => (h.done x hx).concat _, fun x hx => ?started,
    ascending_concat h.started h.ascending _, ?dates⟩
  case queue =>
    rw [next, queue_add, displaced, held?, hr, h.queue]
    exact (List.append_nil _).symm
  case pending =>
    rw [next, pending_add_of_fresh hr, List.map_append, h.pending]
    rfl
  case started =>
    rcases List.mem_append.mp hx with hx | hx
    · exact started_others (h.started x hx)
        (ne_of_record?_eq_none hr (h.pending ▸ List.mem_map_of_mem hx))
    · rw [List.mem_singleton.mp hx]
      exact started_new fun r hr' => by rw [hr] at hr'; cases hr'
  case dates =>
    rw [List.map_append, ← List.append_assoc]
    refine h.dates.behind fun m' hm => ?_
    cases hm
    exact not_overtakes_of_fresh hr

/-- A move that takes the place of an older one. -/
theorem replaced (h : Dated as (({} : MoveBatch).after as) queued kept)
    (hr : (({} : MoveBatch).after as).record? m.pointer = some r)
    (hp : r.event.sameButtons m = true) :
    Dated (as ++ [.keep m]) ((({} : MoveBatch).after as).next (.keep m)) queued
      (kept.map fun x => (x.1, if x.2.event.pointer = m.pointer then x.2.replace m else x.2)) := by
  have replaces : (Arrival.keep m).replaces r.event = true := by
    simp [Arrival.replaces, pointer_of_record? hr, hp]
  have starts : (kept.map fun x =>
      (x.1, if x.2.event.pointer = m.pointer then x.2.replace m else x.2)).map Prod.fst =
        kept.map Prod.fst := by
    rw [List.map_map]
    rfl
  refine ⟨?queue, ?pending, fun x hx => (h.done x hx).concat _, fun x hx => ?started,
    starts ▸ h.ascending, ?dates⟩
  case queue =>
    rw [next, queue_add, displaced, held?, hr, Option.map_some]
    simp [hp, h.queue]
  case pending =>
    rw [next, pending_add_of_replaced hr hp, ← h.pending, List.map_map, List.map_map]
    rfl
  case started =>
    obtain ⟨y, hy, rfl⟩ := List.mem_map.mp hx
    dsimp only
    split
    · next hptr =>
      -- it is the record of the pointer, since what it holds waits
      obtain ⟨-, j, -, hw⟩ := h.started y hy
      have held := held?_of_waits hw
      rw [hptr, held?, hr] at held
      exact (h.started y hy).replace (Option.some.inj held ▸ replaces)
    · next hptr => exact started_others (h.started y hy) hptr
  case dates =>
    rw [starts]
    refine h.dates.skip (fun ho => ?_) fun m' hm => ?_
    · obtain ⟨j, hw⟩ := h.waits hr
      exact ho.2 j (supersedes_concat_last.mpr ⟨_, hw, replaces⟩)
    · cases hm
      exact not_overtakes_of_replaced hr hp

/-- A move that displaces an older one. -/
theorem displaced (h : Dated as (({} : MoveBatch).after as) queued kept)
    (hr : (({} : MoveBatch).after as).record? m.pointer = some r)
    (hp : r.event.sameButtons m = false) : ∃ queued' kept',
    Dated (as ++ [.keep m]) ((({} : MoveBatch).after as).next (.keep m)) queued' kept' := by
  obtain ⟨older, newer, hpending, holder, hnewer⟩ :=
    record?_split (distinct_after (distinct_empty []) as) hr
  obtain ⟨before, rest, rfl, rfl, hrest⟩ := List.map_eq_append_iff.mp (h.pending.trans hpending)
  obtain ⟨⟨i, r⟩, after, rfl, rfl, rfl⟩ := List.map_eq_cons_iff.mp hrest
  dsimp only at hp hr
  have others : ∀ x ∈ before ++ after, x ∈ before ++ (i, r) :: after ∧
      x.2.event.pointer ≠ m.pointer := by
    intro x hx
    rcases List.mem_append.mp hx with hx | hx
    · exact ⟨by simp [hx], holder _ (List.mem_map_of_mem hx)⟩
    · exact ⟨by simp [hx], hnewer _ (List.mem_map_of_mem hx)⟩
  have filtered : (before.map Prod.snd ++ r :: after.map Prod.snd).filter
      (fun x => x.event.pointer ≠ m.pointer) = (before ++ after).map Prod.snd := by
    rw [List.filter_append, List.filter_eq_self.mpr fun x hx => decide_eq_true (holder x hx),
      List.filter_cons_of_neg (by simp [pointer_of_record? hr]),
      List.filter_eq_self.mpr fun x hx => decide_eq_true (hnewer x hx), List.map_append]
  have waiting : Started as i r := h.started (i, r) (by simp)
  have ascending := h.ascending
  rw [List.map_append, List.map_cons] at ascending
  refine ⟨queued ++ [(i, r.toEvent)], before ++ after ++ [(as.length, { event := m })],
    ?queue, ?pending, fun x hx => ?done, fun x hx => ?started, ?ascending, ?dates⟩
  case queue =>
    rw [next, queue_add, MoveBatch.displaced, held?, hr, Option.map_some, List.map_append, h.queue]
    simp [hp, MoveRecord.toEvent]
  case pending =>
    rw [next, pending_add_of_displaced hr hp, hpending, filtered, List.map_append]
    rfl
  case done =>
    rcases List.mem_append.mp hx with hx | hx
    · exact (h.done x hx).concat _
    · rw [List.mem_singleton.mp hx]
      exact waiting.doneAs (by simp [Arrival.ends, pointer_of_record? hr])
        (by simp [Arrival.replaces, hp])
  case started =>
    rcases List.mem_append.mp hx with hx | hx
    · exact started_others (h.started x (others x hx).1) (others x hx).2
    · rw [List.mem_singleton.mp hx]
      exact started_new fun r' hr' => Option.some.inj (hr.symm.trans hr') ▸ hp
  case ascending =>
    refine ascending_concat (fun x hx => h.started x (others x hx).1) ?_ _
    rw [List.map_append]
    exact ascending.sublist ((List.sublist_cons_self _ _).append_left _)
  case dates =>
    have dates := h.dates
    rw [List.map_append, List.map_cons] at dates
    have apart : ∀ k ∈ before.map Prod.fst, pointerAt as k ≠ pointerAt as i := by
      intro k hk
      obtain ⟨x, hx, rfl⟩ := List.mem_map.mp hk
      rw [(h.started x (by simp [hx])).standsFor.pointerAt, waiting.standsFor.pointerAt]
      intro same
      exact holder x.2 (List.mem_map_of_mem hx)
        ((Option.some.inj same).trans (pointer_of_record? hr))
    have displaced := dates.displace (m := m) ascending apart
      ((overtakes_iff_of_displaced hr hp hpending holder).trans (by simp))
    simpa using displaced

/-- Nothing is kept back any more once all that waits is done with. -/
theorem done_flush (h : Dated as b queued kept) (ends : ∀ m : PointerMove, a.ends m.pointer = true)
    (hr : ∀ m, a.replaces m = false) :
    ∀ x ∈ queued ++ kept.map fun x => (x.1, x.2.toEvent), DoneAs (as ++ [a]) x.1 x.2 := by
  intro x hx
  rcases List.mem_append.mp hx with hx | hx
  · exact (h.done x hx).concat a
  · obtain ⟨y, hy, rfl⟩ := List.mem_map.mp hx
    exact (h.started y hy).doneAs (ends _) (hr _)

/-- A flush leaves the positions as they are. -/
theorem map_fst_flush (queued : List (Nat × PointerEvent)) (kept : List (Nat × MoveRecord)) :
    (queued ++ kept.map fun x => (x.1, x.2.toEvent)).map Prod.fst =
      queued.map Prod.fst ++ kept.map Prod.fst := by
  rw [List.map_append, List.map_map]
  rfl

theorem map_snd_flush (h : Dated as b queued kept) :
    (queued ++ kept.map fun x => (x.1, x.2.toEvent)).map Prod.snd = b.flush.queue := by
  rw [List.map_append, h.queue, List.map_map, flush, ← h.pending, List.map_map]
  rfl

/-- An event that is not kept back goes behind all that waits. -/
theorem behind (h : Dated as b queued kept) (e : PointerEvent) :
    Dated (as ++ [.behind e]) (b.next (.behind e))
      (queued ++ (kept.map fun x => (x.1, x.2.toEvent)) ++ [(as.length, e)]) [] := by
  refine ⟨?_, rfl, fun x hx => ?_, by simp, List.Pairwise.nil, ?_⟩
  · rw [List.map_append, h.map_snd_flush]
    rfl
  · rcases List.mem_append.mp hx with hx | hx
    · exact h.done_flush (fun _ => rfl) (fun _ => rfl) x hx
    · rw [List.mem_singleton.mp hx]
      exact doneAs_self
  · rw [List.map_append, map_fst_flush, List.map_nil, List.append_nil]
    exact h.dates.behind fun m hm => by cases hm

theorem flush (h : Dated as b queued kept) : Dated (as ++ [.flush]) (b.next .flush)
    (queued ++ kept.map fun x => (x.1, x.2.toEvent)) [] := by
  refine ⟨h.map_snd_flush, rfl, h.done_flush (fun _ => rfl) fun _ => rfl, by simp,
    List.Pairwise.nil, ?_⟩
  rw [map_fst_flush, List.map_nil, List.append_nil]
  refine h.dates.skip (fun ho => ?_) fun m hm => by cases hm
  obtain ⟨e, he⟩ := ho.1
  rw [eventAt_concat_last] at he
  cases he

theorem other (h : Dated as b queued kept) :
    Dated (as ++ [.other]) (b.next .other) queued kept := by
  refine ⟨h.queue, h.pending, fun x hx => (h.done x hx).concat _,
    fun x hx => (h.started x hx).concat rfl, h.ascending, ?_⟩
  refine h.dates.skip (fun ho => ?_) fun m hm => by cases hm
  obtain ⟨e, he⟩ := ho.1
  rw [eventAt_concat_last] at he
  cases he

end Dated

/-- All that is started in a batch that dispatches nothing is accounted for by what it has
queued and what it keeps back. -/
theorem dated_after (as : List Arrival) :
    ∃ queued kept, Dated as (({} : MoveBatch).after as) queued kept := by
  induction as using List.reverseRecOn with
  | nil => exact ⟨[], [], rfl, rfl, by simp, by simp, List.Pairwise.nil, .nil⟩
  | append_singleton as a ih =>
    obtain ⟨queued, kept, h⟩ := ih
    rw [after_concat]
    cases a with
    | keep m =>
      cases hr : (({} : MoveBatch).after as).record? m.pointer with
      | none => exact ⟨_, _, h.fresh hr⟩
      | some r =>
        cases hp : r.event.sameButtons m with
        | true => exact ⟨_, _, h.replaced hr hp⟩
        | false => exact h.displaced hr hp
    | behind e => exact ⟨_, _, h.behind e⟩
    | flush => exact ⟨_, _, h.flush⟩
    | other => exact ⟨_, _, h.other⟩

/-- What a batch keeps back stands in the order in which it was started. -/
theorem startedInOrder_after (as : List Arrival) :
    StartedInOrder as (({} : MoveBatch).after as).pending := by
  obtain ⟨queued, kept, h⟩ := dated_after as
  exact ⟨kept, h.pending, List.pairwise_map.mp h.ascending, h.started⟩

namespace Dated

/-- What was started goes by what is queued, and what is kept back behind it. -/
theorem timeline (h : Dated as b queued kept) : Timeline as (b.queue ++ b.held)
    (queued ++ kept.map fun x => (x.1, x.2.toEvent)) := by
  refine ⟨h.map_snd_flush, fun x hx => ?_, ?_, ?_⟩
  · rcases List.mem_append.mp hx with hx | hx
    · exact (h.done x hx).standsFor
    · obtain ⟨y, hy, rfl⟩ := List.mem_map.mp hx
      exact (h.started y hy).standsFor
  · rw [map_fst_flush]
    exact h.dates.once
  · rw [map_fst_flush]
    exact h.dates.every

/-- That follows the starts just if no record was overtaken. -/
theorem followsStarts_iff (h : Dated as b queued kept) :
    FollowsStarts as (b.queue ++ b.held) ↔ ¬Overtaken as := by
  constructor
  · rintro ⟨line, timeline, ascending⟩
    -- no other line goes by the same events
    have same := h.timeline.unique timeline (fun p => by rw [map_fst_flush]; exact h.dates.each p)
      fun p => ascending.filter _
    rw [← same, map_fst_flush] at ascending
    exact h.dates.ascend.mp ascending
  · intro none
    refine ⟨_, h.timeline, ?_⟩
    rw [map_fst_flush]
    exact h.dates.ascend.mpr none

end Dated

/-- The events that a batch has queued, and those that it keeps back, go through all that
was started. -/
theorem timeline_after (as : List Arrival) : ∃ line,
    Timeline as ((({} : MoveBatch).after as).queue ++ (({} : MoveBatch).after as).held) line := by
  obtain ⟨queued, kept, h⟩ := dated_after as
  exact ⟨_, h.timeline⟩

/-- They do so in the order of the starts just if no record was overtaken. -/
theorem followsStarts_after (as : List Arrival) :
    FollowsStarts as ((({} : MoveBatch).after as).queue ++ (({} : MoveBatch).after as).held) ↔
      ¬Overtaken as := by
  obtain ⟨queued, kept, h⟩ := dated_after as
  exact h.followsStarts_iff

end MoveBatch

end TabHost
