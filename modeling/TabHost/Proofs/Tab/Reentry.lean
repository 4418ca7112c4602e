import TabHost.Proofs.Tab.Keys
import TabHost.Proofs.Tab.Overtaking

/-!
# Buttons that content pushes

Content may push pointer events while it is handed one. They go to the queue, and not behind what
is kept back, so it depends on the operation that hands content the events whether anything is
kept back by then. An operation that is not for a move flushes first; what content pushes goes
behind all that waited (`Seat.Handling.prefix_handed`). What content pushes while it handles a
wheel or key event is left in the queue, with nothing kept back (`Tab.leftOver_turns`).

A move that displaces an older one of its pointer does not flush. Of what content pushes while it
is handed the older one, a button overtakes the newer one, and the moves of other pointers. This is
the only case in which a button is handed to content while a move waits that was handled before
the button was there (`Tab.buttons_follow_moves`).
-/

namespace TabHost

/-- What stands in a list that begins two others goes by its place. -/
theorem split_of_begins {α : Type} {front rest xs ys : List α} {c : α}
    (h : front ++ c :: rest <+: xs ++ ys) :
    front.length < xs.length ∧ c ∈ xs ∨ xs <+: front ∧ c ∈ ys := by
  obtain ⟨tail, h⟩ := h
  rw [List.append_assoc, List.cons_append] at h
  rcases List.append_eq_append_iff.mp h.symm with ⟨mid, rfl, hy⟩ | ⟨mid, rfl, hc⟩
  · exact Or.inr ⟨List.prefix_append xs mid, by rw [hy]; simp⟩
  · cases mid with
    | nil =>
      rw [List.append_nil]
      rw [List.nil_append] at hc
      exact Or.inr ⟨List.prefix_rfl, by rw [← hc]; simp⟩
    | cons d mid =>
      obtain ⟨rfl, -⟩ := List.cons.inj hc
      exact Or.inl ⟨by simp, by simp⟩

/-- What stands behind all of a first list stands in the second one. -/
theorem cut_of_begins {α : Type} {front rest xs ys : List α} {c : α}
    (h : front ++ c :: rest <+: xs ++ ys) (past : xs.length ≤ front.length) :
    ∃ front', front = xs ++ front' ∧ front' ++ c :: rest <+: ys := by
  rcases split_of_begins h with ⟨early, -⟩ | ⟨⟨front', rfl⟩, -⟩
  · exact absurd early (Nat.not_lt.mpr past)
  · rw [List.append_assoc] at h
    exact ⟨front', rfl, (List.prefix_append_right_inj xs).mp h⟩

/-- Nothing waits once all waiting is ended by something that is not kept back. -/
theorem not_waits_of_ends {as : List Arrival} {a : Arrival} {j : Nat} {m : PointerMove}
    (ends : ∀ m : PointerMove, a.ends m.pointer = true) (other : a ≠ .keep m) :
    ¬Waits (as ++ [a]) j m := by
  intro h
  rcases waits_concat_cases h with ⟨-, stays⟩ | ⟨-, same⟩
  · rw [ends] at stays
    cases stays
  · exact other same

/-- What waits arrived after all that was flushed. -/
theorem lt_of_waits_of_flush {as bs : List Arrival} {j : Nat} {m : PointerMove}
    (h : Waits (as ++ .flush :: bs) j m) : as.length < j := by
  have flushed : (as ++ .flush :: bs)[as.length]? = some .flush := by simp
  rcases Nat.lt_trichotomy j as.length with hlt | rfl | hlt
  · have := h.2 as.length .flush hlt flushed
    cases this
  · cases flushed.symm.trans h.1
  · exact hlt

namespace MoveBatch

/-- What is kept back is what waits. -/
theorem exists_pending_iff {as : List Arrival} {m : PointerMove} :
    (∃ r ∈ (({} : MoveBatch).after as).pending, r.event = m) ↔ ∃ j, Waits as j m := by
  constructor
  · rintro ⟨r, hr, rfl⟩
    obtain ⟨starts, same, -, started⟩ := startedInOrder_after as
    rw [← same] at hr
    obtain ⟨x, hx, rfl⟩ := List.mem_map.mp hr
    obtain ⟨-, j, -, waits⟩ := started x hx
    exact ⟨j, waits⟩
  · rintro ⟨j, waits⟩
    obtain ⟨r, hr, rfl⟩ := Option.map_eq_some_iff.mp (held?_of_waits waits)
    exact ⟨r, List.mem_of_find?_eq_some hr, rfl⟩

variable {b : MoveBatch}

theorem not_mem_held (b : MoveBatch) (e : ButtonEvent) : PointerEvent.button e ∉ b.held := by
  intro h
  obtain ⟨r, -, hr⟩ := List.mem_map.mp h
  cases hr

/-- What a move displaces is a move. -/
theorem move_of_mem_displaced {same : PointerMove → PointerMove → Bool} {m : PointerMove}
    {e : PointerEvent} (h : e ∈ b.displaced same m) : ∃ m', e = .move m' := by
  unfold displaced at h
  split at h
  · cases h
  · split at h
    · cases h
    · exact ⟨_, List.mem_singleton.mp h⟩

/-- A button behind all that was queued goes behind all that was kept back, if that is next. -/
theorem behind_of_begins {front rest more : List PointerEvent} {e : ButtonEvent}
    (h : front ++ .button e :: rest <+: b.queue ++ (b.held ++ more))
    (past : b.queue.length ≤ front.length) : b.queue ++ b.held <+: front := by
  obtain ⟨front, rfl, begins⟩ := cut_of_begins h past
  rcases split_of_begins begins with ⟨-, mem⟩ | ⟨before, -⟩
  · exact absurd mem (not_mem_held b e)
  · exact (List.prefix_append_right_inj _).mpr before

/-- A button behind all that was queued was pushed, if only moves were made ready. -/
theorem mem_pushed_of_begins {front rest ready pushed : List PointerEvent}
    {e : ButtonEvent} (h : front ++ .button e :: rest <+: b.queue ++ (ready ++ pushed))
    (past : b.queue.length ≤ front.length) (moves : ∀ e' ∈ ready, ∃ m, e' = .move m) :
    .button e ∈ pushed := by
  obtain ⟨front, rfl, begins⟩ := cut_of_begins h past
  rcases split_of_begins begins with ⟨-, mem⟩ | ⟨-, mem⟩
  · obtain ⟨m, hm⟩ := moves _ mem
    cases hm
  · exact mem

end MoveBatch

namespace Seat

variable {σ : Type} [Content σ] {s : Seat σ} {o : Outcome Effect (Seat σ)} {b b' : MoveBatch}
  {arrival : Arrival} {e : PointerEvent}

/-! ## What content is handed -/

/-- A drain hands content what is queued, and behind it what content pushes meanwhile. -/
theorem prefix_handed_drain (hm : s.tab.moves = some b) : handed s.tab.id (drain s).trace <+:
    b.queue ++ Content.pushed s.tab.content (callsOf s.tab.id (drain s).trace) := by
  have told := s.stage.prefix_drain.filterMap Call.pointer?
  rw [Call.filterMap_pointer?_map, queue_stage hm] at told
  rw [handed, drain, callsOf_perform]
  exact told

theorem prefix_handed_flushInput (hm : s.tab.moves = some b) (hl : s.tab.state.isLive = true) :
    handed s.tab.id (flushInput s).trace <+: b.queue ++ b.held ++
      Content.pushed s.tab.content (callsOf s.tab.id (flushInput s).trace) := by
  rcases flushInput_cases hm hl with ⟨-, heq⟩ | heq
  · rw [heq]
    exact List.nil_prefix
  · rw [heq]
    exact prefix_handed_drain (s := s.onMoves MoveBatch.flush) (moves_onMoves hm MoveBatch.flush)

/-- A flush without a fault hands content all that waits. -/
theorem prefix_flushed (hm : s.tab.moves = some b) (hl : s.tab.state.isLive = true)
    (fault : (flushInput s).fault = none) :
    b.queue ++ b.held <+: handed s.tab.id (flushInput s).trace := by
  obtain ⟨drained, wheels, calls, others, all⟩ := calls_flushInput hm hl fault
  have silent : wheels.filterMap Call.pointer? = [] := by
    refine List.filterMap_eq_nil_iff.mpr fun c hc => ?_
    obtain ⟨w, rfl⟩ := others c hc
    rfl
  rw [handed, calls, List.filterMap_append, Call.filterMap_pointer?_map, silent, List.append_nil,
    all]
  exact List.prefix_append _ _

/-- What hands content no pointer events may follow a flush. -/
theorem handed_flushInput_andThen {f : Operation σ}
    (hf : ∀ s' : Seat σ, ∀ c ∈ callsOf s.tab.id (f s').trace, c.pointer? = none) :
    handed s.tab.id ((flushInput s).andThen f).trace = handed s.tab.id (flushInput s).trace ∧
      Content.pushed s.tab.content (callsOf s.tab.id (flushInput s).trace) <+:
        Content.pushed s.tab.content (callsOf s.tab.id ((flushInput s).andThen f).trace) := by
  cases fault : (flushInput s).fault with
  | some e =>
    rw [Outcome.andThen_of_fault fault]
    exact ⟨rfl, List.prefix_rfl⟩
  | none =>
    rw [Outcome.trace_andThen fault]
    refine ⟨?_, ?_⟩
    · rw [handed_append, handed_of_forall (hf _), List.append_nil]
    · rw [callsOf_append, Content.pushed_append]
      exact List.prefix_append _ _

theorem pointer?_of_mem_heedKey {k : KeyEvent} (s : Seat σ) {tab : TabId} {c : Call}
    (hc : c ∈ callsOf tab (heedKey k s).trace) : c.pointer? = none := by
  have performed : ∀ (s : Seat σ) (c : Call), c ∈ callsOf tab (perform (Stage.key k) s).trace →
      c.pointer? = none := by
    intro s c hc
    obtain ⟨c', hc', heq⟩ := List.mem_map.mp (mem_callsOf.mp hc)
    cases heq
    rw [Outcome.trace_map, Stage.key, Stage.trace_perform, List.mem_singleton] at hc'
    rw [hc']
    rfl
  rcases heedKey_cases k s with ⟨-, heq⟩ | ⟨-, heq⟩
  · rw [heq] at hc
    cases hc
  · rw [heq, dispatchKey] at hc
    generalize s.setKeys _ = s' at hc
    cases fault : (perform (Stage.key k) s').fault with
    | some f =>
      rw [Outcome.andThen_of_fault fault] at hc
      exact performed s' c hc
    | none =>
      rw [Outcome.trace_andThen fault, callsOf_append, calls_replyKey, List.append_nil] at hc
      exact performed s' c hc

theorem handed_wheelEvent (w : WheelEvent) (nextIsWheel : Bool) (s : Seat σ) :
    handed s.tab.id (wheelEvent w nextIsWheel s).trace = handed s.tab.id (flushInput s).trace ∧
      Content.pushed s.tab.content (callsOf s.tab.id (flushInput s).trace) <+:
        Content.pushed s.tab.content (callsOf s.tab.id (wheelEvent w nextIsWheel s).trace) :=
  handed_flushInput_andThen fun _ _ hc => by
    obtain ⟨w', rfl⟩ := wheel_of_mem_performWheel (handles_wheelEvent _ w nextIsWheel _) hc
    rfl

theorem handed_keyEvent (k : KeyEvent) (s : Seat σ) :
    handed s.tab.id (keyEvent k s).trace = handed s.tab.id (flushInput s).trace ∧
      Content.pushed s.tab.content (callsOf s.tab.id (flushInput s).trace) <+:
        Content.pushed s.tab.content (callsOf s.tab.id (keyEvent k s).trace) :=
  handed_flushInput_andThen fun s' _ hc => pointer?_of_mem_heedKey s' hc

theorem prefix_of_flush (hm : s.tab.moves = some b) (hl : s.tab.state.isLive = true)
    (h : handed s.tab.id o.trace = handed s.tab.id (flushInput s).trace ∧
      Content.pushed s.tab.content (callsOf s.tab.id (flushInput s).trace) <+:
        Content.pushed s.tab.content (callsOf s.tab.id o.trace)) :
    handed s.tab.id o.trace <+:
      b.queue ++ b.held ++ Content.pushed s.tab.content (callsOf s.tab.id o.trace) := by
  rw [h.1]
  exact (prefix_handed_flushInput hm hl).trans ((List.prefix_append_right_inj _).mpr h.2)

/-- Only a move that displaces an older one of its pointer is not kept back in silence. -/
theorem pointerMove_cases (hm : s.tab.moves = some b) (batch : s.tab.settings.batchMoves = true)
    (m : PointerMove) :
    b.displaces PointerMove.sameButtons m = true ∧
      pointerMove m s = drain (s.onMoves (·.add PointerMove.sameButtons m)) ∨
    b.displaces PointerMove.sameButtons m = false ∧
      pointerMove m s = .ok (s.onMoves (·.add PointerMove.sameButtons m)) := by
  unfold pointerMove
  rw [if_pos batch, hm]
  dsimp only
  cases b.displaces PointerMove.sameButtons m with
  | true => exact Or.inl ⟨rfl, rfl⟩
  | false => exact Or.inr ⟨rfl, rfl⟩

/-- What does not concern pointers hands content no pointer event. -/
theorem Handling.handed_of_other (h : Handling s o .other []) : handed s.tab.id o.trace = [] := by
  cases h with
  | notifies h =>
    refine handed_of_forall fun c hc => ?_
    obtain ⟨n, -, rfl⟩ := h.calls hc
    rfl
  | hangUp h =>
    rw [h, Seat.hangUp]
    split <;> rfl

/-- What a live tab hands content in an act: what is queued, then what the act makes ready, then
what content pushes meanwhile, as far as there is no fault. -/
theorem Handling.prefix_handed (h : Handling s o arrival []) (hm : s.tab.moves = some b)
    (hl : s.tab.state.isLive = true) : handed s.tab.id o.trace <+:
      b.queue ++ b.ready arrival ++ Content.pushed s.tab.content (callsOf s.tab.id o.trace) := by
  cases h with
  | @move m batch h =>
    rw [h]
    rcases pointerMove_cases hm batch m with ⟨-, heq⟩ | ⟨-, heq⟩
    · rw [heq, ← MoveBatch.queue_next b (.keep m)]
      exact prefix_handed_drain (s := s.onMoves (·.add PointerMove.sameButtons m))
        (moves_onMoves hm (·.add PointerMove.sameButtons m))
    · rw [heq]
      exact List.nil_prefix
  | @behind e h =>
    rw [h, pointerEvent_eq_drain hm, ← MoveBatch.queue_next b (.behind e)]
    exact prefix_handed_drain (s := s.onMoves fun b => b.flush.enqueue e)
      (moves_onMoves hm fun b => b.flush.enqueue e)
  | flush h =>
    rw [h]
    exact prefix_handed_flushInput hm hl
  | wheel h =>
    rw [h]
    exact prefix_of_flush hm hl (handed_wheelEvent _ _ s)
  | key h =>
    rw [h]
    exact prefix_of_flush hm hl (handed_keyEvent _ s)
  | notifies h =>
    rw [(Handling.notifies h).handed_of_other]
    exact List.nil_prefix
  | hangUp h =>
    rw [(Handling.hangUp h).handed_of_other]
    exact List.nil_prefix

/-- Without displacing an older one, a move hands content nothing. -/
theorem Handling.handed_of_keep {m : PointerMove} (h : Handling s o (.keep m) [])
    (hm : s.tab.moves = some b) (kept : b.displaces PointerMove.sameButtons m = false) :
    handed s.tab.id o.trace = [] := by
  cases h with
  | move batch h =>
    rw [h]
    rcases pointerMove_cases hm batch m with ⟨displaces, -⟩ | ⟨-, heq⟩
    · rw [kept] at displaces
      cases displaces
    · rw [heq]
      rfl

/-- What content is handed a button behind, if it was not queued yet and no move is displaced: all
that waited. Nothing waits from then on. -/
theorem Handling.behind_all (h : Handling s o arrival []) (hm : s.tab.moves = some b)
    (hl : s.tab.state.isLive = true) {front rest : List PointerEvent} {e : ButtonEvent}
    (told : handed s.tab.id o.trace = front ++ .button e :: rest)
    (past : b.queue.length ≤ front.length)
    (undisplaced : ∀ m, arrival = .keep m → b.displaces PointerMove.sameButtons m = false) :
    b.queue ++ b.held <+: front ∧ ∀ as j m, ¬Waits (as ++ [arrival]) j m := by
  have begins := h.prefix_handed hm hl
  rw [told] at begins
  cases arrival with
  | keep m =>
    rw [h.handed_of_keep hm (undisplaced m rfl)] at told
    simp at told
  | behind e' =>
    rw [MoveBatch.ready, List.append_assoc, List.append_assoc] at begins
    exact ⟨MoveBatch.behind_of_begins begins past,
      fun _ _ _ => not_waits_of_ends (fun _ => rfl) (by simp)⟩
  | flush =>
    rw [MoveBatch.ready, List.append_assoc] at begins
    exact ⟨MoveBatch.behind_of_begins begins past,
      fun _ _ _ => not_waits_of_ends (fun _ => rfl) (by simp)⟩
  | other =>
    rw [h.handed_of_other] at told
    simp at told

/-- A button that content is handed while a move displaces another, and that was not queued yet,
was pushed meanwhile. -/
theorem Handling.mem_pushed_of_keep {m : PointerMove} (h : Handling s o (.keep m) [])
    (hm : s.tab.moves = some b) (hl : s.tab.state.isLive = true) {front rest : List PointerEvent}
    {e : ButtonEvent} (told : handed s.tab.id o.trace = front ++ .button e :: rest)
    (past : b.queue.length ≤ front.length) :
    .button e ∈ Content.pushed s.tab.content (callsOf s.tab.id o.trace) := by
  have begins := h.prefix_handed hm hl
  rw [told, MoveBatch.ready, List.append_assoc] at begins
  exact MoveBatch.mem_pushed_of_begins begins past fun _ => MoveBatch.move_of_mem_displaced

/-! ## What is left in the queue -/

/-- After a wheel or key event, just what content pushed last is left in the queue. -/
theorem suffix_of_flush (hm : s.tab.moves = some b) (hl : s.tab.state.isLive = true)
    (accounts : Accounts b.flush s o) (fault : o.fault = none)
    (flushed : (flushInput s).fault = none)
    (handed_eq : handed s.tab.id o.trace = handed s.tab.id (flushInput s).trace)
    (hm' : o.state.tab.moves = some b') :
    b'.queue <:+ Content.pushed s.tab.content (callsOf s.tab.id o.trace) := by
  obtain ⟨queue, moves, all⟩ := accounts.moves fault
  cases hm'.symm.trans moves
  obtain ⟨pushed, told⟩ := prefix_flushed hm hl flushed
  have queued : b.flush.queue = b.queue ++ b.held := rfl
  rw [handed_eq, ← told, queued, List.append_assoc] at all
  exact ⟨pushed, List.append_cancel_left all⟩

/-- After an act, the queue is empty, or as it was, or holds what content pushed last while it
handled an event behind which nothing is kept back. -/
theorem Handling.leftOver (h : Handling s o arrival []) (hm : s.tab.moves = some b)
    (hl : s.tab.state.isLive = true) (fault : o.fault = none)
    (hm' : o.state.tab.moves = some b') :
    b'.queue = [] ∨ b'.queue = b.queue ∨ arrival = .flush ∧
      b'.queue <:+ Content.pushed s.tab.content (callsOf s.tab.id o.trace) := by
  have accounts := h.accounts hm hl
  cases h with
  | @move m batch h =>
    rw [h] at fault hm'
    rcases pointerMove_cases hm batch m with ⟨-, heq⟩ | ⟨kept, heq⟩ <;> rw [heq] at fault hm'
    · cases hm'.symm.trans (moves_drain
        (moves_onMoves hm (·.add PointerMove.sameButtons m)) fault)
      exact Or.inl rfl
    · cases hm'.symm.trans (moves_onMoves hm (·.add PointerMove.sameButtons m))
      have none : b.displaced PointerMove.sameButtons m = [] := by
        unfold MoveBatch.displaces at kept
        unfold MoveBatch.displaced MoveBatch.held?
        cases hr : b.record? m.pointer with
        | none => rfl
        | some r =>
          rw [hr] at kept
          simpa using kept
      refine Or.inr (Or.inl ?_)
      rw [MoveBatch.queue_add, none, List.append_nil]
  | behind h =>
    rw [h] at fault hm'
    cases hm'.symm.trans (moves_pointerEvent hm fault)
    exact Or.inl rfl
  | flush h =>
    rw [h] at fault hm'
    cases hm'.symm.trans (moves_flushInput hm hl fault)
    exact Or.inl rfl
  | @wheel w nextIsWheel h =>
    rw [taking_nil] at accounts
    rw [h] at fault hm' accounts ⊢
    exact Or.inr (Or.inr ⟨rfl, suffix_of_flush hm hl accounts fault
      (Outcome.fault_andThen_eq_none_iff.mp fault).1 (handed_wheelEvent w nextIsWheel s).1 hm'⟩)
  | @key k h =>
    rw [taking_nil] at accounts
    rw [h] at fault hm' accounts ⊢
    exact Or.inr (Or.inr ⟨rfl, suffix_of_flush hm hl accounts fault
      (Outcome.fault_andThen_eq_none_iff.mp fault).1 (handed_keyEvent k s).1 hm'⟩)
  | notifies h =>
    cases hm'.symm.trans (h.moves.trans hm)
    exact Or.inr (Or.inl rfl)
  | hangUp h =>
    have same : o.state.tab.moves = s.tab.moves := by
      rw [h, Seat.hangUp]
      split <;> rfl
    cases hm'.symm.trans (same.trans hm)
    exact Or.inr (Or.inl rfl)

end Seat

/-! ## In the long run -/

namespace Tab

variable {σ : Type} [Content σ] {build : Build} {t : Tab σ} {xs : List Turn} {x : Turn}

/-- What is left in the queue of a tab was pushed in a turn that flushed. -/
def LeftOver (build : Build) (t : Tab σ) (xs : List Turn) (queue : List PointerEvent) : Prop :=
  queue = [] ∨ ∃ ys y zs, xs = ys ++ y :: zs ∧ y.act.arrival t.settings.batchMoves = .flush ∧
    queue <:+ (t.turns build ys).state.pushedInTurn build y

theorem handling_turn (build : Build) {u : Tab σ} (live : u.state.isLive = true)
    (spared : x.act.tearsDown = false) (dispatching : x.act.pushes = []) :
    Seat.Handling (u.seat x) (Seat.act build x.act (u.seat x))
      (x.act.arrival u.settings.batchMoves) [] := by
  rw [← dispatching]
  exact Seat.handling_act (s := u.seat x) build live spared

theorem leftOver_turns (build : Build) (live : t.state.isLive = true) (moves : t.moves = some {})
    (spared : ∀ x ∈ xs, x.act.tearsDown = false) (dispatching : ∀ x ∈ xs, x.act.pushes = [])
    (fault : (t.turns build xs).fault = none) {b : MoveBatch}
    (hb : (t.turns build xs).state.moves = some b) : LeftOver build t xs b.queue := by
  induction xs using List.reverseRecOn generalizing b with
  | nil =>
    cases moves.symm.trans hb
    exact Or.inl rfl
  | append_singleton xs x ih =>
    have before := fault_of_append fault
    have spared' : ∀ y ∈ xs, y.act.tearsDown = false :=
      fun y hy => spared y (List.mem_append_left _ hy)
    obtain ⟨id, settings, live', -, b₀, hb₀, -⟩ := balanced_turns build live moves spared' before
    have left := ih spared' (fun y hy => dispatching y (List.mem_append_left _ hy)) before hb₀
    rw [turns_append, Outcome.fault_andThen before, turns_singleton] at fault
    rw [turns_append, Outcome.state_andThen before, turns_singleton] at hb
    have handling := handling_turn build live' (spared x (by simp)) (dispatching x (by simp))
    rcases handling.leftOver hb₀ live' fault hb with empty | same | ⟨flush, pushed⟩
    · exact Or.inl empty
    · rw [same]
      rcases left with empty | ⟨ys, y, zs, rfl, flush, pushed⟩
      · exact Or.inl empty
      · exact Or.inr ⟨ys, y, zs ++ [x], by simp, flush, pushed⟩
    · rw [settings] at flush
      refine Or.inr ⟨xs, x, [], rfl, flush, ?_⟩
      rw [pushedInTurn, dispatching x (by simp)]
      exact pushed

/-- Whether a move displaces an older one of its pointer, as a tab has it. -/
def Displaces (t : Tab σ) (b : MoveBatch) (x : Turn) (m : PointerMove) : Prop :=
  x.act.arrival t.settings.batchMoves = .keep m ∧ b.displaces PointerMove.sameButtons m = true

/-- How content is handed a button in the turn `x` that comes after the turns `xs`, behind some
other events `front`, if `b` waits then. -/
structure HandsButton (build : Build) (t : Tab σ) (xs : List Turn) (x : Turn) (b : MoveBatch)
    (front : List PointerEvent) (e : ButtonEvent) : Prop where
  /-- One that was queued already was pushed in an earlier turn, and nothing waits that was handled
  up to then. -/
  queued : front.length < b.queue.length → ∃ ys y zs, xs = ys ++ y :: zs ∧
    .button e ∈ (t.turns build ys).state.pushedInTurn build y ∧
    ∀ j m, Waits (t.arrivals (xs ++ [x])) j m → ys.length < j
  /-- Any other goes behind all that waited, and nothing waits then, unless the turn is one of a
  move that displaces an older one. -/
  behind : b.queue.length ≤ front.length → (∀ m, ¬t.Displaces b x m) →
    b.queue ++ b.held <+: front ∧ ∀ j m, ¬Waits (t.arrivals (xs ++ [x])) j m
  /-- If it is, content pushed the button while it was handed the older move, and the newer one
  waits, and so does what waited of the other pointers. -/
  ahead : b.queue.length ≤ front.length → ∀ m, t.Displaces b x m →
    .button e ∈ (t.turns build xs).state.pushedInTurn build x ∧
    Waits (t.arrivals (xs ++ [x])) xs.length m ∧
    ∀ j m', Waits (t.arrivals xs) j m' → m'.pointer ≠ m.pointer →
      Waits (t.arrivals (xs ++ [x])) j m'

/-- A button that was queued before a turn. -/
theorem queued_of_leftOver {b : MoveBatch} {e : ButtonEvent} (left : LeftOver build t xs b.queue)
    (mem : .button e ∈ b.queue) : ∃ ys y zs, xs = ys ++ y :: zs ∧
      .button e ∈ (t.turns build ys).state.pushedInTurn build y ∧
      ∀ j m, Waits (t.arrivals (xs ++ [x])) j m → ys.length < j := by
  rcases left with empty | ⟨ys, y, zs, rfl, flush, pushed⟩
  · rw [empty] at mem
    cases mem
  · refine ⟨ys, y, zs, rfl, pushed.subset mem, fun j m waits => ?_⟩
    have arrived : t.arrivals (ys ++ y :: zs ++ [x]) =
        t.arrivals ys ++ .flush :: t.arrivals (zs ++ [x]) := by
      simp [arrivals, flush]
    rw [arrived] at waits
    have := lt_of_waits_of_flush waits
    rwa [arrivals, List.length_map] at this

/-- Whatever is done to a live tab, and whatever content pushes while it handles events: when it
is handed a button, no move waits any more that the tab handled before the button arrived or was
pushed, but was handed to content or superseded, unless content pushed the button while it was
handed a move that a newer one displaced. Then the newer one does wait. -/
theorem buttons_follow_moves (build : Build) {t : Tab σ} {xs : List Turn}
    (live : t.state.isLive = true) (moves : t.moves = some {})
    (spared : ∀ x ∈ xs, x.act.tearsDown = false) (dispatching : ∀ x ∈ xs, x.act.pushes = [])
    (fault : (t.turns build xs).fault = none) :
    ∃ b, (t.turns build xs).state.moves = some b ∧ Accounted build t xs b ∧
      (∀ m, (∃ r ∈ b.pending, r.event = m) ↔ ∃ j, Waits (t.arrivals xs) j m) ∧
      ∀ x : Turn, x.act.tearsDown = false → x.act.pushes = [] → ∀ front e rest,
        handed t.id ((t.turns build xs).state.turn build x).trace = front ++ .button e :: rest →
        HandsButton build t xs x b front e := by
  obtain ⟨id, settings, ulive, -, b, hb, pending, queue⟩ :=
    balanced_turns build live moves spared fault
  have left := leftOver_turns build live moves spared dispatching fault hb
  refine ⟨b, hb, accounted_of_pending pending queue, fun m => ?_, ?_⟩
  · rw [pending]
    exact MoveBatch.exists_pending_iff
  intro x hx hp front e rest told
  have handling := handling_turn build ulive hx hp
  have told' : handed ((t.turns build xs).state.seat x).tab.id
      (Seat.act build x.act ((t.turns build xs).state.seat x)).trace =
        front ++ .button e :: rest := by
    rw [← told, ← id]
    rfl
  rw [settings] at handling
  refine ⟨fun early => ?_, fun past undisplaced => ?_, ?_⟩
  · have begins := handling.prefix_handed hb ulive
    rw [told', List.append_assoc] at begins
    rcases split_of_begins begins with ⟨-, mem⟩ | ⟨before, -⟩
    · exact queued_of_leftOver left mem
    · exact absurd before.length_le (Nat.not_le.mpr early)
  · rw [arrivals_concat]
    obtain ⟨begins, none⟩ := handling.behind_all hb ulive told' past fun m arrival => by
      rw [← Bool.not_eq_true]
      exact fun displaces => undisplaced m ⟨arrival, displaces⟩
    exact ⟨begins, none _⟩
  · rintro past m ⟨arrival, -⟩
    rw [arrivals_concat, arrival]
    rw [arrival] at handling
    refine ⟨?_, ?_, fun j m' waits other => waits.concat ?_⟩
    · rw [pushedInTurn, hp]
      exact handling.mem_pushed_of_keep hb ulive told' past
    · have length : (t.arrivals xs).length = xs.length := by rw [arrivals, List.length_map]
      rw [← length]
      exact waits_concat_self
    · simpa [Arrival.ends] using Ne.symm other

/-- A live tab whose content pushes a button while it is handed its first event. -/
def eager : Tab Headless :=
  (create { value := 7 } {} { reentrant := [.button release] }).connected
    { tab := { value := 7 } }

/-- Behind two moves and a button, content is handed the button that it pushed. -/
theorem buttons_follow_moves_eager :
    ∃ b, (eager.turns .checked moveApart).state.moves = some b ∧
      b.queue ++ b.held <+: [.move { pointer := ⟨1⟩, position := {} },
        .move { pointer := ⟨2⟩, position := {} }, .button release] ∧
      ∀ j m, ¬Waits (eager.arrivals (moveApart ++ [delivers (.button release)])) j m := by
  have spared : ∀ x ∈ moveApart, x.act.tearsDown = false := by decide
  obtain ⟨b, hb, -, -, hands⟩ :=
    buttons_follow_moves .checked (t := eager) rfl rfl spared (by decide) (by rfl)
  have button := hands (delivers (.button release)) rfl rfl
    [.move { pointer := ⟨1⟩, position := {} }, .move { pointer := ⟨2⟩, position := {} },
      .button release] release [] (by rfl)
  have undisplaced : ∀ m, ¬eager.Displaces b (delivers (.button release)) m := by
    rintro m ⟨arrival, -⟩
    cases arrival
  refine ⟨b, hb, button.behind ?_ undisplaced⟩
  cases hb
  decide

/-- A move of the first pointer, with another button held. -/
def grab : Turn := delivers (.pointerMove { pointer := ⟨1⟩, position := {}, buttons := 1 })

/-- The button that content pushes while it is handed a displaced move is handed to it before the
move of the other pointer, which arrived before. -/
theorem button_ahead_of_moves :
    handed ⟨7⟩ ((eager.turns .checked moveApart).state.turn .checked grab).trace =
        [.move { pointer := ⟨1⟩, position := {} }, .button release] ∧
      (((eager.turns .checked moveApart).state.turn .checked grab).state.pendingMove ⟨2⟩).map
        MoveRecord.event = some { pointer := ⟨2⟩, position := {} } ∧
      Waits (eager.arrivals (moveApart ++ [grab])) 1 { pointer := ⟨2⟩, position := {} } := by
  refine ⟨by rfl, by rfl, by rfl, fun k a later there => ?_⟩
  have last : k < 3 := (List.getElem?_eq_some_iff.mp there).1
  obtain rfl : k = 2 := by omega
  cases there
  rfl

end Tab

end TabHost
