import TabHost.Content.Headless
import TabHost.Proofs.Content.Reactions

/-!
# What content shows

Two of the notices tell content of its visibility (`Call.shows?`). Content that heeds them,
and changes its visibility for no other reason, shows what it was told last
(`Content.isVisible_after`).
-/

set_option linter.unusedSectionVars false

namespace TabHost

/-- What a call tells content of its visibility. -/
def Call.shows? : Call → Option Bool
  | .notice .makeVisible => some true
  | .notice .makeHidden => some false
  | _ => none

theorem Call.shows?_of_isInput {c : Call} (h : c.isInput = true) : c.shows? = none := by
  cases c with
  | notice => cases h
  | _ => rfl

namespace Content

/-- Content is visible just as it is told. -/
class ShowsAsTold (σ : Type) [Content σ] : Prop where
  isVisible_react : ∀ (c : σ) (call : Call),
    isVisible (react c call).content = call.shows?.getD (isVisible c)

instance : ShowsAsTold Headless where
  isVisible_react c call := by
    cases call with
    | pointer e =>
      show (Headless.pointer c).content.visible = c.visible
      unfold Headless.pointer
      split <;> rfl
    | wheel e => rfl
    | key e status => rfl
    | notice n => cases n <;> rfl

variable {σ : Type} [Content σ] [ShowsAsTold σ]

/-- Content shows what it was told last. -/
theorem isVisible_after (c : σ) (calls : List Call) :
    isVisible (after c calls) = (calls.filterMap Call.shows?).getLast?.getD (isVisible c) := by
  induction calls generalizing c with
  | nil => rfl
  | cons call rest ih =>
    rw [after, ih, ShowsAsTold.isVisible_react]
    cases h : call.shows? with
    | none =>
      rw [List.filterMap_cons_none h]
      rfl
    | some visible =>
      rw [List.filterMap_cons_some h, List.getLast?_cons]
      rfl

end Content

end TabHost
