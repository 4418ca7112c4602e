import Mathlib.Data.List.Induction
import TabHost.Proofs.Tab.Ledger

/-!
# The balance of pointer input

However much is done to a live tab, its content was handed, or still waits for in the
queue, all that ever was ready for dispatch and all that was pushed, each in its order; and
what the tab keeps back is what a batch keeps back that dispatches nothing
(`Tab.balanced_turns`).
-/

set_option linter.unusedSectionVars false

namespace TabHost

/-- A list is put together from two others, each of them in its order. -/
def Interleaves {α : Type} (as bs l : List α) : Prop :=
  ∃ tagged : List (α ⊕ α), tagged.filterMap Sum.getLeft? = as ∧
    tagged.filterMap Sum.getRight? = bs ∧ tagged.map (Sum.elim id id) = l

namespace Interleaves

variable {α : Type} {as bs l as' bs' l' : List α}

theorem left (as : List α) : Interleaves as [] as :=
  ⟨as.map Sum.inl, by simp [List.filterMap_map, Function.comp_def],
    by simp [List.filterMap_map, Function.comp_def], by simp [Function.comp_def]⟩

theorem right (bs : List α) : Interleaves [] bs bs :=
  ⟨bs.map Sum.inr, by simp [List.filterMap_map, Function.comp_def],
    by simp [List.filterMap_map, Function.comp_def], by simp [Function.comp_def]⟩

theorem append (h : Interleaves as bs l) (h' : Interleaves as' bs' l') :
    Interleaves (as ++ as') (bs ++ bs') (l ++ l') := by
  obtain ⟨tagged, rfl, rfl, rfl⟩ := h
  obtain ⟨tagged', rfl, rfl, rfl⟩ := h'
  exact ⟨tagged ++ tagged', List.filterMap_append, List.filterMap_append, List.map_append⟩

/-- With nothing from the one list, there is just the other. -/
theorem eq_of_nil (h : Interleaves [] bs l) : l = bs := by
  obtain ⟨tagged, hleft, rfl, rfl⟩ := h
  induction tagged with
  | nil => rfl
  | cons x rest ih =>
    cases x with
    | inl a => simp at hleft
    | inr b =>
      have hleft : rest.filterMap Sum.getLeft? = [] := by simpa using hleft
      simpa using ih hleft

end Interleaves

namespace Tab

variable {σ : Type} [Content σ]

/-- What reaches the batch of moves of a tab in some turns. -/
def arrivals (t : Tab σ) (xs : List Turn) : List Arrival :=
  xs.map fun x => x.act.arrival t.settings.batchMoves

/-- The events that are pushed into a tab in a turn. -/
def pushedInTurn (build : Build) (x : Turn) (t : Tab σ) : List PointerEvent :=
  x.act.pushes ++ Content.pushed t.content (callsOf t.id (t.turn build x).trace)

/-- The events that are pushed into a tab in some turns. -/
def pushedIn (build : Build) : List Turn → Tab σ → List PointerEvent
  | [], _ => []
  | x :: xs, t => t.pushedInTurn build x ++ pushedIn build xs (t.turn build x).state

theorem arrivals_concat (t : Tab σ) (xs : List Turn) (x : Turn) :
    t.arrivals (xs ++ [x]) = t.arrivals xs ++ [x.act.arrival t.settings.batchMoves] := by
  simp [arrivals]

theorem pushedIn_concat (build : Build) (xs : List Turn) (x : Turn) {t : Tab σ}
    (hf : (t.turns build xs).fault = none) : t.pushedIn build (xs ++ [x]) =
      t.pushedIn build xs ++ (t.turns build xs).state.pushedInTurn build x := by
  induction xs generalizing t with
  | nil => exact List.append_nil _
  | cons y ys ih =>
    simp only [turns] at hf ⊢
    have hy : (t.turn build y).fault = none := by
      cases hy : (t.turn build y).fault with
      | none => rfl
      | some f =>
        rw [Outcome.andThen_of_fault hy, hy] at hf
        exact hf
    rw [Outcome.fault_andThen hy] at hf
    rw [Outcome.state_andThen hy, List.cons_append, pushedIn, pushedIn, ih hf,
      List.append_assoc]

/-- After some turns, content was handed or still waits for, in the queue, all that was
ready for dispatch and all that was pushed; and what is kept back is what a batch keeps
back that dispatches nothing. -/
structure Balanced (build : Build) (t : Tab σ) (xs : List Turn) : Prop where
  id : (t.turns build xs).state.id = t.id
  settings : (t.turns build xs).state.settings = t.settings
  live : (t.turns build xs).state.state.isLive = true
  content : (t.turns build xs).state.content =
    Content.after t.content (callsOf t.id (t.turns build xs).trace)
  moves : ∃ b, (t.turns build xs).state.moves = some b ∧
    b.pending = (({} : MoveBatch).after (t.arrivals xs)).pending ∧
    Interleaves (t.pushedIn build xs) (({} : MoveBatch).after (t.arrivals xs)).queue
      (handed t.id (t.turns build xs).trace ++ b.queue)

theorem balanced_turns (build : Build) {t : Tab σ} (hl : t.state.isLive = true)
    (hm : t.moves = some {}) {xs : List Turn} (hx : ∀ x ∈ xs, x.act.tearsDown = false)
    (hf : (t.turns build xs).fault = none) : t.Balanced build xs := by
  induction xs using List.reverseRecOn with
  | nil => exact ⟨rfl, rfl, hl, rfl, {}, hm, rfl, .left []⟩
  | append_singleton xs x ih =>
    have hxs := fault_of_append hf
    obtain ⟨id, settings, live, content, b, hb, hpending, hqueue⟩ :=
      ih (fun y hy => hx y (List.mem_append_left _ hy)) hxs
    rw [turns_append, Outcome.fault_andThen hxs, turns_singleton] at hf
    have hpushed := t.pushedIn_concat build xs x hxs
    have hx := hx x (by simp)
    have state : (t.turns build (xs ++ [x])).state =
        ((t.turns build xs).state.turn build x).state := by
      rw [turns_append, Outcome.state_andThen hxs, turns_singleton]
    have trace : (t.turns build (xs ++ [x])).trace = (t.turns build xs).trace ++
        ((t.turns build xs).state.turn build x).trace := by
      rw [turns_append, Outcome.trace_andThen hxs, turns_singleton]
    generalize (t.turns build xs).state = u at *
    have account := Seat.accounts_act (s := u.seat x) build hb live hx
    obtain ⟨id', settings', state'⟩ := Seat.keeps_act (s := u.seat x) build live hx
    obtain ⟨queue, hmoves, htold⟩ := account.moves hf
    have hcontent := account.content hf
    -- in this turn, what is ready goes behind what waits, and what is pushed behind that
    have told : handed t.id (u.turn build x).trace ++ queue =
        b.queue ++ b.ready (x.act.arrival t.settings.batchMoves) ++ u.pushedInTurn build x := by
      rw [← id, ← settings]
      refine htold.trans ?_
      simp only [Seat.taking, MoveBatch.queue_next, pushedInTurn, List.append_assoc]
      rfl
    refine ⟨?_, ?_, ?_, ?_, _, by rw [state]; exact hmoves, ?_, ?_⟩
    · rw [state]
      exact id'.trans id
    · rw [state]
      exact settings'.trans settings
    · rw [state]
      exact (congrArg Lifecycle.isLive state').trans live
    · rw [state, trace, callsOf_append, Content.after_append, ← content, ← id]
      exact hcontent
    · rw [arrivals_concat, MoveBatch.after_concat, ← settings]
      exact MoveBatch.pending_next_congr hpending _
    · rw [arrivals_concat, MoveBatch.after_concat, MoveBatch.queue_next,
        ← MoveBatch.ready_congr hpending, hpushed, trace, handed_append, List.append_assoc, told,
        ← List.append_assoc, ← List.append_assoc, List.append_assoc (_ ++ b.queue)]
      refine hqueue.append ?_
      simpa using (Interleaves.right (b.ready (x.act.arrival t.settings.batchMoves))).append
        (.left (u.pushedInTurn build x))

end Tab

end TabHost
