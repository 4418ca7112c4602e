import TabHost.Render.Gate
import TabHost.Protocol.Message
import Mathlib.Data.List.Induction
import Mathlib.Data.List.Nodup

/-!
# The newest render state

Render states are ordered by their epochs. To go through some of them and to keep the newer
one each time (`PendingRender.newer`) leads to the newest of all (`isNewest_foldl`), and if no
two have one epoch, there is only one newest, in whatever order they are looked at
(`IsNewest.unique`).

Looked at in one order, those that are news are newer than all before them (`newsAmong`).
-/

namespace TabHost

/-- The newer one of two render states. -/
def PendingRender.newer (a b : PendingRender) : PendingRender :=
  if a.epoch < b.epoch then b else a

/-- The newest of some render states and of one that was there before. -/
structure IsNewest (base : PendingRender) (rs : List PendingRender) (last : PendingRender) :
    Prop where
  among : last = base ∨ last ∈ rs ∧ base.epoch < last.epoch
  newest : ∀ r ∈ rs, ¬last.epoch < r.epoch

variable {base last last' : PendingRender} {rs rs' : List PendingRender}

/-- One more render state: the newer one is the newest. -/
theorem IsNewest.snoc (h : IsNewest base rs last) (r : PendingRender) :
    IsNewest base (rs ++ [r]) (last.newer r) := by
  unfold PendingRender.newer
  split
  · next hlt =>
    refine ⟨Or.inr ⟨by simp, ?_⟩, ?_⟩
    · rcases h.among with rfl | ⟨-, hbase⟩
      · exact hlt
      · exact Epoch.lt_trans hbase hlt
    · intro r' hr'
      rcases List.mem_append.mp hr' with hr' | hr'
      · exact fun hlt' => h.newest r' hr' (Epoch.lt_trans hlt hlt')
      · rw [List.mem_singleton.mp hr']
        exact Epoch.not_lt_self r.epoch
  · next hnlt =>
    refine ⟨h.among.imp_right fun hm => ⟨List.mem_append_left _ hm.1, hm.2⟩, ?_⟩
    intro r' hr'
    rcases List.mem_append.mp hr' with hr' | hr'
    · exact h.newest r' hr'
    · rw [List.mem_singleton.mp hr']
      exact hnlt

/-- Keeping the newer one each time leads to the newest. -/
theorem isNewest_foldl (base : PendingRender) (rs : List PendingRender) :
    IsNewest base rs (rs.foldl PendingRender.newer base) := by
  induction rs using List.reverseRecOn with
  | nil => exact ⟨Or.inl rfl, by simp⟩
  | append_singleton rs r ih =>
    rw [List.foldl_append]
    exact ih.snoc r

/-- If no two epochs are the same, there is one newest, in whatever order. -/
theorem IsNewest.unique (h : IsNewest base rs last) (h' : IsNewest base rs' last')
    (distinct : (rs.map PendingRender.epoch).Nodup) (same : List.Perm rs' rs) : last' = last := by
  rcases h.among with rfl | ⟨hm, hlt⟩
  · rcases h'.among with rfl | ⟨hm', hlt'⟩
    · rfl
    · exact absurd hlt' (h.newest last' (same.mem_iff.mp hm'))
  · rcases h'.among with rfl | ⟨hm', hlt'⟩
    · exact absurd hlt (h'.newest last (same.mem_iff.mpr hm))
    · have epoch : last'.epoch = last.epoch :=
        Epoch.eq_of_not_lt (h'.newest last (same.mem_iff.mpr hm))
          (h.newest last' (same.mem_iff.mp hm'))
      exact List.inj_on_of_nodup_map distinct (same.mem_iff.mp hm') hm epoch

/-! ## News -/

/-- Whether a render state is newer than an epoch and than all of some others. -/
def PendingRender.IsNews (epoch : Epoch) (before : List PendingRender) (r : PendingRender) : Prop :=
  epoch < r.epoch ∧ ∀ r' ∈ before, r'.epoch < r.epoch

instance (epoch : Epoch) (before : List PendingRender) (r : PendingRender) :
    Decidable (r.IsNews epoch before) :=
  inferInstanceAs (Decidable (_ ∧ _))

theorem PendingRender.isNews_append {epoch : Epoch} {before before' : List PendingRender}
    {r : PendingRender} : r.IsNews epoch (before ++ before') ↔
      r.IsNews epoch before ∧ ∀ r' ∈ before', r'.epoch < r.epoch := by
  simp only [IsNews, List.forall_mem_append, and_assoc]

/-- Those of some render states that are newer than an epoch and than all before them, which
are some that came before and those of the list. -/
def newsAmong (epoch : Epoch) : (before rs : List PendingRender) → List PendingRender
  | _, [] => []
  | before, r :: rs =>
    (if r.IsNews epoch before then [r] else []) ++ newsAmong epoch (before ++ [r]) rs

theorem newsAmong_concat (epoch : Epoch) (before rs : List PendingRender) (r : PendingRender) :
    newsAmong epoch before (rs ++ [r]) =
      newsAmong epoch before rs ++ if r.IsNews epoch (before ++ rs) then [r] else [] := by
  induction rs generalizing before with
  | nil => simp [newsAmong]
  | cons r' rs ih =>
    rw [List.cons_append, newsAmong, newsAmong, ih, List.append_assoc, List.append_assoc]
    rfl

theorem mem_newsAmong {epoch : Epoch} {before rs : List PendingRender} {r : PendingRender}
    (h : r ∈ newsAmong epoch before rs) : r ∈ rs ∧ epoch < r.epoch := by
  induction rs generalizing before with
  | nil => cases h
  | cons r' rs ih =>
    rcases List.mem_append.mp h with h | h
    · split at h
      · next news =>
        obtain rfl := List.mem_singleton.mp h
        exact ⟨List.mem_cons_self, news.1⟩
      · cases h
    · exact ⟨List.mem_cons_of_mem _ (ih h).1, (ih h).2⟩

end TabHost
