import TabHost.Content.Headless
import TabHost.Proofs.Tab.Balance

/-!
# What batching drops

Two tabs have the same done to them, up to a last flush, and content pushes nothing into
either. The one that keeps no moves back hands content all that arrives, in its order. The
one that does hands content of each pointer what arrives of it but for the superseded moves,
and the last event of every pointer is the same (`Tab.batching_drops_superseded`).
-/

set_option linter.unusedSectionVars false

namespace TabHost

/-- The pointer event of a request. -/
def Request.pointer? : Request → Option PointerEvent
  | .pointerMove m => some (.move m)
  | .synthPointerMove m => some (.move m)
  | .button b => some (.button b)
  | _ => none

/-- The pointer event that comes in with an act. -/
def Act.inbound? : Act → Option PointerEvent
  | .request e => e.request.pointer?
  | _ => none

/-- What arrives is what comes in, whether moves are kept back or not. -/
theorem Act.event?_arrival (batch : Bool) (a : Act) :
    (a.arrival batch).event? = a.inbound? := by
  cases a with
  | request e =>
    obtain ⟨tab, channel, priority, request⟩ := e
    cases request with
    | pointerMove m => cases batch <;> rfl
    | _ => rfl
  | _ => rfl

/-- Nothing is kept back of what arrives at a tab that does not batch moves. -/
theorem Act.arrival_false_ne_keep (a : Act) (m : PointerMove) : a.arrival false ≠ .keep m := by
  cases a with
  | request e =>
    obtain ⟨tab, channel, priority, request⟩ := e
    cases request <;> simp [arrival, Request.arrival]
  | _ => simp [arrival]

/-- Without moves that may be kept back, all is ready as it arrives. -/
theorem MoveBatch.after_eq_of_forall_ne {as : List Arrival} (h : ∀ a ∈ as, ∀ m, a ≠ .keep m)
    (queue : List PointerEvent) : ({ pending := [], queue := queue } : MoveBatch).after as =
      { pending := [], queue := queue ++ as.filterMap Arrival.event? } := by
  induction as generalizing queue with
  | nil =>
    rw [List.filterMap_nil, List.append_nil]
    rfl
  | cons a as ih =>
    have ih := ih fun a ha => h a (List.mem_cons_of_mem _ ha)
    cases a with
    | keep m => exact absurd rfl (h _ List.mem_cons_self m)
    | behind e =>
      refine (ih (queue ++ [] ++ [e])).trans ?_
      simp [Arrival.event?]
    | flush =>
      refine (ih (queue ++ [])).trans ?_
      rw [List.append_nil]
      rfl
    | other => exact ih queue

namespace Tab

variable {σ : Type} [Content σ] {t : Tab σ} {xs : List Turn}

theorem filterMap_arrivals (t : Tab σ) (xs : List Turn) :
    (t.arrivals xs).filterMap Arrival.event? = xs.filterMap fun x => x.act.inbound? := by
  have same : (Arrival.event? ∘ fun x : Turn => x.act.arrival t.settings.batchMoves) =
      fun x => x.act.inbound? := funext fun x => Act.event?_arrival _ x.act
  rw [arrivals, List.filterMap_map, same]

/-- Nothing waits after turns that end with a flush. -/
theorem moves_turns_of_flush (build : Build) (hl : t.state.isLive = true)
    (hm : t.moves = some {}) (hx : ∀ x ∈ xs, x.act.tearsDown = false)
    (last : (xs.map Turn.act).getLast? = some .flush) (hf : (t.turns build xs).fault = none) :
    (t.turns build xs).state.moves = some {} := by
  obtain ⟨acts, heq⟩ := List.getLast?_eq_some_iff.mp last
  obtain ⟨before, after, rfl, -, hafter⟩ := List.map_eq_append_iff.mp heq
  obtain ⟨x, rfl, hact⟩ := List.map_eq_singleton_iff.mp hafter
  have hbefore := fault_of_append hf
  have balanced := balanced_turns build hl hm
    (fun y hy => hx y (List.mem_append_left _ hy)) hbefore
  obtain ⟨b, hb, -⟩ := balanced.moves
  rw [turns_append, Outcome.fault_andThen hbefore, turns_singleton] at hf
  rw [turns_append, Outcome.state_andThen hbefore, turns_singleton]
  unfold turn at hf ⊢
  rw [hact] at hf ⊢
  exact Seat.moves_flushInput hb balanced.live hf

/-- If nothing is pushed into a tab, content was handed all that was ready once nothing
waits any more. -/
theorem handed_of_quiet (build : Build) (hl : t.state.isLive = true) (hm : t.moves = some {})
    (hx : ∀ x ∈ xs, x.act.tearsDown = false)
    (last : (xs.map Turn.act).getLast? = some .flush) (hf : (t.turns build xs).fault = none)
    (quiet : t.pushedIn build xs = []) :
    handed t.id (t.turns build xs).trace = (({} : MoveBatch).after (t.arrivals xs)).queue ∧
      (({} : MoveBatch).after (t.arrivals xs)).held = [] := by
  obtain ⟨b, hb, hpending, hqueue⟩ := (balanced_turns build hl hm hx hf).moves
  cases hb.symm.trans (moves_turns_of_flush build hl hm hx last hf)
  rw [quiet, List.append_nil] at hqueue
  exact ⟨hqueue.eq_of_nil, by rw [MoveBatch.held, ← hpending]; rfl⟩

/-- A tab that does not batch moves hands content all that comes in. One that does drops
the superseded moves, and nothing else, of every pointer, so that content sees the same
event of the pointer last. -/
theorem batching_drops_superseded (build : Build) {t u : Tab σ} {xs ys : List Turn}
    (tlive : t.state.isLive = true) (ulive : u.state.isLive = true)
    (tmoves : t.moves = some {}) (umoves : u.moves = some {})
    (batching : t.settings.batchMoves = true) (plain : u.settings.batchMoves = false)
    (same : ys.map Turn.act = xs.map Turn.act)
    (last : (xs.map Turn.act).getLast? = some .flush)
    (spared : ∀ x ∈ xs, x.act.tearsDown = false)
    (tfault : (t.turns build xs).fault = none) (ufault : (u.turns build ys).fault = none)
    (tquiet : t.pushedIn build xs = []) (uquiet : u.pushedIn build ys = []) :
    handed u.id (u.turns build ys).trace = ys.filterMap (fun y => y.act.inbound?) ∧
    ∀ p : PointerId,
      KeptOf p (xs.map fun x => x.act.arrival true)
        ((handed t.id (t.turns build xs).trace).filter (PointerEvent.isOf p)) ∧
      ((handed t.id (t.turns build xs).trace).filter (PointerEvent.isOf p)).getLast? =
        ((handed u.id (u.turns build ys).trace).filter (PointerEvent.isOf p)).getLast? := by
  have uspared : ∀ y ∈ ys, y.act.tearsDown = false := fun y hy => by
    have hmem : y.act ∈ xs.map Turn.act := same ▸ List.mem_map_of_mem hy
    obtain ⟨x, hx, hact⟩ := List.mem_map.mp hmem
    rw [← hact]
    exact spared x hx
  have tarrivals : t.arrivals xs = xs.map fun x => x.act.arrival true := by
    rw [arrivals, batching]
  have inbound : ys.filterMap (fun y => y.act.inbound?) = xs.filterMap fun x => x.act.inbound? := by
    have := congrArg (List.filterMap Act.inbound?) same
    rwa [List.filterMap_map, List.filterMap_map] at this
  obtain ⟨told, held⟩ := handed_of_quiet build tlive tmoves spared last tfault tquiet
  have unbatched : handed u.id (u.turns build ys).trace =
      ys.filterMap fun y => y.act.inbound? := by
    rw [(handed_of_quiet build ulive umoves uspared (same ▸ last) ufault uquiet).1,
      MoveBatch.after_eq_of_forall_ne, List.nil_append, filterMap_arrivals]
    rintro a ha m
    obtain ⟨y, -, rfl⟩ := List.mem_map.mp ha
    rw [plain]
    exact y.act.arrival_false_ne_keep m
  refine ⟨unbatched, fun p => ?_⟩
  rw [told, unbatched, inbound, ← filterMap_arrivals t xs, ← tarrivals]
  have kept := MoveBatch.keptOf_after p (t.arrivals xs)
  have survived := MoveBatch.filter_after (MoveBatch.distinct_empty []) (t.arrivals xs) p
  rw [held, List.append_nil] at kept survived
  refine ⟨kept, ?_⟩
  rw [survived]
  exact getLast?_survivors p (t.arrivals xs)

/-- A live tab with headless content, which batches moves or does not. -/
def headless (batch : Bool) : Tab Headless :=
  (create { value := 7 } { batchMoves := batch } {}).connected { tab := { value := 7 } }

/-- Moves of two pointers, a button of one of them, and a flush. -/
def moveTwice : List Turn :=
  [.pointerMove { pointer := ⟨1⟩, position := {} },
    .pointerMove { pointer := ⟨2⟩, position := {} },
    .pointerMove { pointer := ⟨1⟩, position := {}, block := ⟨1⟩ },
    .button { pointer := ⟨1⟩, button := .primary, action := .down, position := {} },
    .pointerMove { pointer := ⟨1⟩, position := {}, buttons := 1 }].map (fun request =>
      { around := {}, act := .request { tab := { value := 7 }, request := request } }) ++
    [{ around := {}, act := .flush }]

/-- Just the first move is superseded. -/
theorem batching_drops_superseded_headless :
    (handed ⟨7⟩ ((headless false).turns .checked moveTwice).trace).length = 5 ∧
    (handed ⟨7⟩ ((headless true).turns .checked moveTwice).trace).length = 4 ∧
    handed ⟨7⟩ ((headless false).turns .checked moveTwice).trace =
      moveTwice.filterMap (fun x => x.act.inbound?) ∧
    ∀ p : PointerId,
      KeptOf p (moveTwice.map fun x => x.act.arrival true)
        ((handed ⟨7⟩ ((headless true).turns .checked moveTwice).trace).filter
          (PointerEvent.isOf p)) ∧
      ((handed ⟨7⟩ ((headless true).turns .checked moveTwice).trace).filter
          (PointerEvent.isOf p)).getLast? =
        ((handed ⟨7⟩ ((headless false).turns .checked moveTwice).trace).filter
          (PointerEvent.isOf p)).getLast? := by
  have spared : ∀ x ∈ moveTwice, x.act.tearsDown = false := by decide
  have drops := batching_drops_superseded .checked (t := headless true) (u := headless false)
    rfl rfl rfl rfl rfl rfl rfl rfl spared rfl rfl rfl rfl
  exact ⟨rfl, rfl, drops.1, drops.2⟩

end Tab

end TabHost
