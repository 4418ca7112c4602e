import TabHost.Proofs.Batch.Dispatch
import TabHost.Proofs.Tab.Batching

/-!
# The order in which content sees pointer input

If content pushes nothing, then what a live tab hands it goes through all pointer input in
the order in which the records were started, as long as none is overtaken. If one is, it
does not (`Tab.dispatch_follows_starts`): a move that displaces the record of its pointer
sends that record to content at once, ahead of older records of other pointers.
-/

set_option linter.unusedSectionVars false

namespace TabHost

namespace Tab

variable {σ : Type} [Content σ]

/-- What content was handed, what is queued and what is kept back after some turns goes through
all that was started. It does so in the order of the starts just if no record was overtaken. -/
theorem dispatch_follows_starts (build : Build) {t : Tab σ} {xs : List Turn}
    (live : t.state.isLive = true) (moves : t.moves = some {})
    (spared : ∀ x ∈ xs, x.act.tearsDown = false) (fault : (t.turns build xs).fault = none)
    (quiet : t.pushedIn build xs = []) :
    ∃ b, (t.turns build xs).state.moves = some b ∧
      (∃ line, Timeline (t.arrivals xs)
        (handed t.id (t.turns build xs).trace ++ b.queue ++ b.held) line) ∧
      (FollowsStarts (t.arrivals xs) (handed t.id (t.turns build xs).trace ++ b.queue ++ b.held) ↔
        ¬Overtaken (t.arrivals xs)) := by
  obtain ⟨b, hb, hpending, hqueue⟩ := (balanced_turns build live moves spared fault).moves
  rw [quiet] at hqueue
  refine ⟨b, hb, ?_⟩
  rw [hqueue.eq_of_nil, MoveBatch.held, hpending]
  exact ⟨MoveBatch.timeline_after _, MoveBatch.followsStarts_after _⟩

/-- Moves of two pointers, one of which then drags, and a flush. -/
def drag (pointer : PointerId) : List Turn :=
  [.pointerMove { pointer := ⟨1⟩, position := {} },
    .pointerMove { pointer := ⟨2⟩, position := {} },
    .pointerMove { pointer := pointer, position := {}, buttons := 1 }].map (fun request =>
      { around := {}, act := .request { tab := { value := 7 }, request := request } }) ++
    [{ around := {}, act := .flush }]

/-- If the pointer drags that moved first, nothing is overtaken. -/
theorem dispatch_follows_starts_drag :
    handed ⟨7⟩ ((headless true).turns .checked (drag ⟨1⟩)).trace =
      [.move { pointer := ⟨1⟩, position := {} }, .move { pointer := ⟨2⟩, position := {} },
        .move { pointer := ⟨1⟩, position := {}, buttons := 1 }] ∧
    ∃ b, ((headless true).turns .checked (drag ⟨1⟩)).state.moves = some b ∧
      (∃ line, Timeline ((headless true).arrivals (drag ⟨1⟩))
        (handed ⟨7⟩ ((headless true).turns .checked (drag ⟨1⟩)).trace ++ b.queue ++ b.held) line) ∧
      (FollowsStarts ((headless true).arrivals (drag ⟨1⟩))
          (handed ⟨7⟩ ((headless true).turns .checked (drag ⟨1⟩)).trace ++ b.queue ++ b.held) ↔
        ¬Overtaken ((headless true).arrivals (drag ⟨1⟩))) := by
  have spared : ∀ x ∈ drag ⟨1⟩, x.act.tearsDown = false := by decide
  exact ⟨rfl, dispatch_follows_starts .checked (t := headless true) rfl rfl spared rfl rfl⟩

/-- If the other one drags, it is seen in front of the first. -/
theorem dispatch_not_in_order : ¬FollowsStarts ((headless true).arrivals (drag ⟨2⟩))
    (handed ⟨7⟩ ((headless true).turns .checked (drag ⟨2⟩)).trace) := by
  have told : handed ⟨7⟩ ((headless true).turns .checked (drag ⟨2⟩)).trace =
      [.move { pointer := ⟨2⟩, position := {} }, .move { pointer := ⟨1⟩, position := {} },
        .move { pointer := ⟨2⟩, position := {}, buttons := 1 }] := rfl
  rintro ⟨line, timeline, ascending⟩
  have heq := timeline.events
  rw [told] at heq
  obtain ⟨⟨first, _⟩, rest, rfl, -, heq⟩ := List.map_eq_cons_iff.mp heq
  obtain ⟨⟨second, _⟩, rest, rfl, rfl, -⟩ := List.map_eq_cons_iff.mp heq
  have after : first < second := List.rel_of_pairwise_cons ascending (by simp)
  obtain ⟨j, hle, he⟩ := (timeline.standsFor _ (.tail _ (.head _))).exists_le
  -- the move of the first pointer arrived in front, so nothing was started before it
  have front : j = 0 := by
    match j, he with
    | 0, _ => rfl
    | 1, he => cases he
    | 2, he => cases he
    | 3, he => cases he
    | j + 4, he => cases he
  omega

end Tab

end TabHost
