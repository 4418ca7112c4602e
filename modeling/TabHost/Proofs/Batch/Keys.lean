import TabHost.Batch.Keys

/-!
# Keystrokes

A `Keystroke` is a key event that was handled: content answered it, or it was withheld. A filter
of key events goes from one to the next (`KeyFilter.after`), and what it remembers of them can be
told from the keystrokes themselves.

The end of the last repeat that it remembers is that of the most recent one that content was
handed, if all that came after it were skippable keydowns and keypresses, and none of them a
keydown that content was handed (`LastRepeat`, `KeyFilter.Remembers`). So a keydown is skipped if
content is behind with such a repeat (`Behind`, `KeyFilter.Remembers.skips_iff`).

The keypresses behind a keydown are let through or held back together, whatever the filter
remembered before (`KeyFilter.LetsPresses`, `KeyFilter.HoldsPresses`).
-/

namespace TabHost

/-- A key event that was handled. -/
structure Keystroke where
  event : KeyEvent
  /-- What content made of it, unless it was withheld. -/
  answer : Option EventStatus
  /-- When it was over. -/
  finished : Duration

namespace Keystroke

/-- Content was handed a keydown or a keypress of a held key. -/
structure Repeats (k : Keystroke) : Prop where
  delivered : k.answer.isSome = true
  isRepeat : k.event.isRepeat = true
  downOrPress : k.event.isDownOrPress = true

/-- A keystroke after which the last repeat before it still matters. -/
structure Spares (k : Keystroke) : Prop where
  skippable : k.event.skippable = true
  downOrPress : k.event.isDownOrPress = true
  /-- It is no more recent repeat. -/
  unrepeated : ¬k.Repeats
  undelivered : k.event.action = .down → k.answer = none

end Keystroke

/-- The most recent repeat among some keystrokes, if all that came after it were skippable
keydowns and keypresses, and none of them a keydown that was delivered. -/
def LastRepeat (log : List Keystroke) (r : Keystroke) : Prop :=
  ∃ before after, log = before ++ r :: after ∧ r.Repeats ∧ ∀ k ∈ after, k.Spares

/-- Content is behind: a key event may be skipped, and it was sent before the dispatch of the
last repeat was over. -/
structure Behind (log : List Keystroke) (e : KeyEvent) : Prop where
  skippable : e.skippable = true
  early : ∃ r, LastRepeat log r ∧ e.timestamp < r.finished

variable {log : List Keystroke} {k r : Keystroke}

theorem not_lastRepeat_nil : ¬LastRepeat [] r := by
  rintro ⟨before, after, h, -⟩
  simp at h

/-- One more keystroke is the last repeat, or spares the one before. -/
theorem lastRepeat_concat :
    LastRepeat (log ++ [k]) r ↔ k.Repeats ∧ r = k ∨ k.Spares ∧ LastRepeat log r := by
  constructor
  · rintro ⟨before, after, h, repeats, spared⟩
    rcases List.eq_nil_or_concat after with rfl | ⟨after, k', rfl⟩
    · obtain ⟨rfl, same⟩ := List.append_inj' h rfl
      obtain rfl := List.singleton_inj.mp same
      exact Or.inl ⟨repeats, rfl⟩
    · rw [List.concat_eq_append, ← List.cons_append, ← List.append_assoc] at h
      obtain ⟨rfl, same⟩ := List.append_inj' h rfl
      obtain rfl := List.singleton_inj.mp same
      rw [List.concat_eq_append] at spared
      exact Or.inr ⟨spared k (by simp), before, after, rfl, repeats,
        fun k' hk' => spared k' (List.mem_append_left _ hk')⟩
  · rintro (⟨repeats, rfl⟩ | ⟨spares, before, after, rfl, repeats, spared⟩)
    · exact ⟨log, [], rfl, repeats, by simp⟩
    · refine ⟨before, after ++ [k], by simp, repeats, fun k' hk' => ?_⟩
      rcases List.mem_append.mp hk' with hk' | hk'
      · exact spared k' hk'
      · rw [List.mem_singleton.mp hk']
        exact spares

namespace KeyFilter

variable {f : KeyFilter} {e : KeyEvent} {skipRepeats : Bool}

theorem skippable_of_skips (h : f.skips e = true) : e.skippable = true := by
  unfold skips relevantEnd at h
  cases hs : e.skippable with
  | true => rfl
  | false => simp [hs] at h

/-- A key that goes up is not skipped. -/
theorem skips_up (h : e.action = .up) : f.skips e = false := by
  have other : e.isDownOrPress = false := by simp only [KeyEvent.isDownOrPress, h]
  simp only [skips, relevantEnd, other, Bool.and_false, Bool.false_eq_true, if_false]

/-- What is remembered of a consumed keydown does not depend on what is skipped. -/
theorem ignoresPress_afterSkip (f : KeyFilter) (e : KeyEvent) :
    (f.afterSkip e).ignoresPress = f.ignoresPress := by
  unfold afterSkip
  split
  · rfl
  · split
    · rfl
    · split <;> rfl

/-! ## From one keystroke to the next -/

/-- What is remembered once it is decided about a key event, if repeats are skipped or not. -/
def considered (skipRepeats : Bool) (f : KeyFilter) (e : KeyEvent) : KeyFilter :=
  if skipRepeats then f.afterSkip e else f

theorem ignoresPress_considered (skipRepeats : Bool) (f : KeyFilter) (e : KeyEvent) :
    (f.considered skipRepeats e).ignoresPress = f.ignoresPress := by
  cases skipRepeats with
  | false => rfl
  | true => exact ignoresPress_afterSkip f e

/-- Whether a key event is withheld from content. -/
def withholds (skipRepeats : Bool) (f : KeyFilter) (e : KeyEvent) : Bool :=
  (skipRepeats && f.skips e) || f.suppresses e

/-- What is remembered after a keystroke. -/
def after (skipRepeats : Bool) (f : KeyFilter) (k : Keystroke) : KeyFilter :=
  match k.answer with
  | none => f.considered skipRepeats k.event
  | some status => (f.considered skipRepeats k.event).record k.event status k.finished

/-- A keystroke is withheld or not as the filter has it. -/
def Decides (skipRepeats : Bool) (f : KeyFilter) (k : Keystroke) : Prop :=
  k.answer = none ↔ f.withholds skipRepeats k.event = true

/-! ## Repeats -/

/-- What a filter remembers is the end of the last repeat. -/
def Remembers (f : KeyFilter) (log : List Keystroke) : Prop :=
  ∀ d, f.repeatEnd = some d ↔ ∃ r, LastRepeat log r ∧ r.finished = d

theorem remembers_nil : Remembers {} [] := by
  intro d
  constructor
  · intro h
    cases h
  · rintro ⟨r, last, -⟩
    exact absurd last not_lastRepeat_nil

/-- A repeat that was sent before the end of the last one is skipped. -/
theorem skips_down_iff (down : e.action = .down) : f.skips e = true ↔
    e.skippable = true ∧ ∃ d, f.repeatEnd = some d ∧ e.timestamp < d := by
  have downOrPress : e.isDownOrPress = true := by simp only [KeyEvent.isDownOrPress, down]
  cases hs : e.skippable <;> cases hr : f.repeatEnd <;>
    simp [skips, relevantEnd, hs, hr, down, downOrPress]

/-- The end of the last repeat is forgotten at a keydown that is not skipped, and at an event
that does not belong to a held key. -/
theorem repeatEnd_afterSkip (f : KeyFilter) (e : KeyEvent) : (f.afterSkip e).repeatEnd =
    if e.skippable = true ∧ e.isDownOrPress = true ∧ (e.action = .down → f.skips e = true) then
      f.repeatEnd
    else none := by
  cases relevant : e.skippable && e.isDownOrPress with
  | false =>
    have unkept : ¬(e.skippable = true ∧ e.isDownOrPress = true ∧
        (e.action = .down → f.skips e = true)) := by
      rintro ⟨skippable, downOrPress, -⟩
      rw [skippable, downOrPress] at relevant
      cases relevant
    simp only [if_neg unkept, afterSkip, relevantEnd, relevant, Bool.false_eq_true, if_false]
  | true =>
    obtain ⟨skippable, downOrPress⟩ := Bool.and_eq_true_iff.mp relevant
    have same : f.relevantEnd e = f.repeatEnd := if_pos relevant
    simp only [skippable, downOrPress, true_and, afterSkip, same]
    cases last : f.repeatEnd with
    | none => exact (ite_self none).symm
    | some finished =>
      by_cases skipped : f.skips e = true
      · simp [skipped]
      · by_cases down : e.action = .down
        · simp [skipped, down]
        · simp [skipped, down, last]

/-- Of the keydowns, just those are withheld that are skipped. -/
theorem Decides.down_iff (h : f.Decides true k) (down : k.event.action = .down) :
    k.answer = none ↔ f.skips k.event = true := by
  refine Iff.trans h ?_
  simp [withholds, suppresses, down]

/-- A keystroke leaves the end of a repeat behind, or the one that was there if it spares it. -/
theorem repeatEnd_after (h : f.Decides true k) {d : Duration} :
    (f.after true k).repeatEnd = some d ↔
      k.Repeats ∧ k.finished = d ∨ k.Spares ∧ f.repeatEnd = some d := by
  have spares_iff : k.Spares ↔ ¬k.Repeats ∧ k.event.skippable = true ∧
      k.event.isDownOrPress = true ∧ (k.event.action = .down → f.skips k.event = true) :=
    ⟨fun spares => ⟨spares.unrepeated, spares.skippable, spares.downOrPress,
        fun down => (h.down_iff down).mp (spares.undelivered down)⟩,
      fun ⟨unrepeated, skippable, downOrPress, skips⟩ => ⟨skippable, downOrPress, unrepeated,
        fun down => (h.down_iff down).mpr (skips down)⟩⟩
  have skipped : ((f.afterSkip k.event).repeatEnd = some d ↔
      (k.event.skippable = true ∧ k.event.isDownOrPress = true ∧
        (k.event.action = .down → f.skips k.event = true)) ∧ f.repeatEnd = some d) := by
    rw [repeatEnd_afterSkip]
    split
    · next kept => exact ⟨fun same => ⟨kept, same⟩, And.right⟩
    · next unkept => exact ⟨fun same => (by cases same), fun same => absurd same.1 unkept⟩
  by_cases repeats : k.Repeats
  · obtain ⟨status, delivered⟩ := Option.isSome_iff_exists.mp repeats.delivered
    have recorded : (f.after true k).repeatEnd = some k.finished := by
      simp only [after, delivered, record, repeats.isRepeat, repeats.downOrPress, Bool.and_self,
        if_true]
    rw [recorded, spares_iff]
    simp [repeats]
  · have unrecorded : (f.after true k).repeatEnd = (f.afterSkip k.event).repeatEnd := by
      cases delivered : k.answer with
      | none => simp only [after, delivered, considered, if_true]
      | some status =>
        have held : ¬(k.event.isRepeat && k.event.isDownOrPress) = true := fun held =>
          repeats ⟨by rw [delivered]; rfl, (Bool.and_eq_true_iff.mp held).1,
            (Bool.and_eq_true_iff.mp held).2⟩
        simp only [after, delivered, considered, record, if_true, if_neg held]
    rw [unrecorded, skipped, spares_iff]
    simp [repeats]

theorem Remembers.concat (h : f.Remembers log) (decides : f.Decides true k) :
    (f.after true k).Remembers (log ++ [k]) := by
  intro d
  rw [repeatEnd_after decides, h]
  constructor
  · rintro (⟨repeats, finished⟩ | ⟨spares, r, last, finished⟩)
    · exact ⟨k, lastRepeat_concat.mpr (Or.inl ⟨repeats, rfl⟩), finished⟩
    · exact ⟨r, lastRepeat_concat.mpr (Or.inr ⟨spares, last⟩), finished⟩
  · rintro ⟨r, last, finished⟩
    rcases lastRepeat_concat.mp last with ⟨repeats, rfl⟩ | ⟨spares, last⟩
    · exact Or.inl ⟨repeats, finished⟩
    · exact Or.inr ⟨spares, r, last, finished⟩

/-- A keydown is skipped if content is behind. -/
theorem Remembers.skips_iff (h : f.Remembers log) (down : e.action = .down) :
    f.skips e = true ↔ Behind log e := by
  rw [skips_down_iff down]
  constructor
  · rintro ⟨skippable, d, finished, early⟩
    obtain ⟨r, last, rfl⟩ := (h d).mp finished
    exact ⟨skippable, r, last, early⟩
  · rintro ⟨skippable, r, last, early⟩
    exact ⟨skippable, r.finished, (h _).mpr ⟨r, last, rfl⟩, early⟩

/-! ## Keypresses -/

/-- The keypresses that come next are let through. -/
structure LetsPresses (skipRepeats : Bool) (f : KeyFilter) : Prop where
  unconsumed : f.ignoresPress = false
  unskipped : skipRepeats = true → f.skipsPress = false

/-- The keypresses that come next are held back, as far as they are skippable if the keydown
was: content consumed the keydown, or it was skipped. -/
def HoldsPresses (skipRepeats skippable : Bool) (f : KeyFilter) : Prop :=
  f.ignoresPress = true ∨
    skipRepeats = true ∧ skippable = true ∧ f.skipsPress = true ∧ f.repeatEnd.isSome = true

/-- A keydown that is not skipped ends the skipping. -/
theorem skipsPress_afterSkip_of_down (down : e.action = .down) (h : f.skips e = false) :
    (f.afterSkip e).skipsPress = false := by
  unfold afterSkip
  split
  · rfl
  · rw [if_neg (by simp [h]), if_pos down]

/-- What is skipped leaves the end of the last repeat where it is, and takes its keypresses
with it. -/
theorem afterSkip_of_skips (h : f.skips e = true) :
    f.repeatEnd.isSome = true ∧
      f.afterSkip e = { f with skipsPress := f.skipsPress || e.action = .down } := by
  cases last : f.relevantEnd e with
  | none => simp [skips, last] at h
  | some finished =>
    refine ⟨?_, by simp only [afterSkip, last, h, if_true]⟩
    unfold relevantEnd at last
    split at last
    · rw [last]
      rfl
    · cases last

/-- A keydown that content was handed and did not consume lets the keypresses behind it through,
whatever was remembered before; any other one holds them back. -/
theorem presses_after_down (h : f.Decides skipRepeats k) (down : k.event.action = .down) :
    (f.after skipRepeats k).LetsPresses skipRepeats ∧
        (∃ status, k.answer = some status ∧ status ≠ .consumeNoDefault) ∨
      (f.after skipRepeats k).HoldsPresses skipRepeats k.event.skippable ∧
        ¬∃ status, k.answer = some status ∧ status ≠ .consumeNoDefault := by
  have decides : k.answer = none ↔ skipRepeats = true ∧ f.skips k.event = true :=
    Iff.trans h (by simp [withholds, suppresses, down])
  cases answer : k.answer with
  | none =>
    obtain ⟨on, skips⟩ := decides.mp answer
    obtain ⟨last, after⟩ := afterSkip_of_skips skips
    refine Or.inr ⟨Or.inr ⟨on, skippable_of_skips skips, ?_, ?_⟩, by simp⟩
    · simp only [KeyFilter.after, answer, considered, on, if_true, after, down, decide_true,
        Bool.or_true]
    · simp only [KeyFilter.after, answer, considered, on, if_true, after]
      exact last
  | some status =>
    have recorded : (f.after skipRepeats k).ignoresPress =
        decide (status = .consumeNoDefault) := by
      simp only [KeyFilter.after, answer, record, down, if_true]
    by_cases consumed : status = .consumeNoDefault
    · refine Or.inr ⟨Or.inl (recorded.trans (decide_eq_true consumed)), ?_⟩
      rintro ⟨status', same, unconsumed⟩
      cases same
      exact unconsumed consumed
    · refine Or.inl ⟨⟨recorded.trans (decide_eq_false consumed), fun on => ?_⟩, status, rfl,
        consumed⟩
      have kept : f.skips k.event = false := by
        rw [← Bool.not_eq_true]
        intro skips
        rw [decides.mpr ⟨on, skips⟩] at answer
        cases answer
      simp only [KeyFilter.after, answer, considered, on, if_true]
      exact skipsPress_afterSkip_of_down down kept

/-- A keypress that is let through leaves the next one to be let through. -/
theorem LetsPresses.press (h : f.LetsPresses skipRepeats) (decides : f.Decides skipRepeats k)
    (press : k.event.action = .press) :
    k.answer ≠ none ∧ (f.after skipRepeats k).LetsPresses skipRepeats := by
  have kept : skipRepeats = true → f.skips k.event = false := by
    intro on
    unfold skips
    split
    · rfl
    · simp [press, h.unskipped on]
  have delivered : k.answer ≠ none := by
    intro withheld
    have := decides.mp withheld
    rw [withholds, suppresses, h.unconsumed, Bool.and_false, Bool.or_false,
      Bool.and_eq_true] at this
    rw [kept this.1] at this
    cases this.2
  obtain ⟨status, answer⟩ := Option.ne_none_iff_exists'.mp delivered
  refine ⟨delivered, ?_, fun on => ?_⟩
  · simp only [KeyFilter.after, answer, record, press, reduceCtorEq, if_false]
    exact (ignoresPress_considered skipRepeats f k.event).trans h.unconsumed
  · simp only [KeyFilter.after, answer, considered, on, if_true, record]
    unfold afterSkip
    split
    · rfl
    · rw [if_neg (by simp [kept on]), if_neg (by simp [press])]
      exact h.unskipped on

/-- A keypress that is held back leaves the next one to be held back. -/
theorem HoldsPresses.press {skippable : Bool} (h : f.HoldsPresses skipRepeats skippable)
    (decides : f.Decides skipRepeats k) (press : k.event.action = .press)
    (allowed : skippable = true → k.event.skippable = true) :
    k.answer = none ∧ (f.after skipRepeats k).HoldsPresses skipRepeats skippable := by
  have skipped : skipRepeats = true → skippable = true → f.skipsPress = true →
      f.repeatEnd.isSome = true → f.skips k.event = true := by
    intro _ on skips last
    obtain ⟨finished, last⟩ := Option.isSome_iff_exists.mp last
    have relevant : f.relevantEnd k.event = some finished := by
      simp only [relevantEnd, allowed on, KeyEvent.isDownOrPress, press, Bool.and_self, if_true,
        last]
    simp [KeyFilter.skips, relevant, skips, press]
  have withheld : k.answer = none := by
    refine decides.mpr ?_
    rcases h with consumed | ⟨on, skippable, skips, last⟩
    · simp [withholds, suppresses, press, consumed]
    · simp [withholds, on, skipped on skippable skips last]
  refine ⟨withheld, ?_⟩
  simp only [KeyFilter.after, withheld]
  rcases h with consumed | ⟨on, skippable, skips, last⟩
  · exact Or.inl ((ignoresPress_considered skipRepeats f k.event).trans consumed)
  · obtain ⟨-, after⟩ := afterSkip_of_skips (skipped on skippable skips last)
    refine Or.inr ⟨on, skippable, ?_, ?_⟩
    · simp only [considered, on, if_true, after, skips, Bool.true_or]
    · simp only [considered, on, if_true, after]
      exact last

end KeyFilter

end TabHost
