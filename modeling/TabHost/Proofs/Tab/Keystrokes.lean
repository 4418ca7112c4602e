import Mathlib.Data.List.Induction
import TabHost.Proofs.Tab.Entry
import TabHost.Proofs.Tab.Keys

/-!
# The keystrokes of a tab

Whatever enters a live tab, its filter of key events goes from keystroke to keystroke, and nothing
else moves it (`Tab.keys_visit`). So what becomes of a key event can be told from the history of
the tab.

If repeats are skipped, a keydown is withheld just if content is behind with the last repeat
(`Tab.skips_when_behind`). The keypresses behind a keydown are handed to content just if the
keydown was, and was not consumed, whatever happened before (`Tab.keypress_shares_fate`).
-/

namespace TabHost

/-- The key event that is delivered when a tab is entered. -/
def Entry.key? : Entry → Option KeyEvent
  | .act a => a.key?
  | _ => none

variable {σ : Type} [Content σ]

namespace Seat

variable {s : Seat σ} {en : Entry} {e : KeyEvent}

/-- What enters a tab that stays live did not tear it down. -/
theorem spared_of_live (build : Build) {a : Act} (hs : s.tab.Sound)
    (hl : s.tab.state.isLive = true) (undropped : a ≠ .drop)
    (live : (act build a s).state.tab.state.isLive = true) : a.tearsDown = false := by
  cases ha : a.tearsDown with
  | false => rfl
  | true =>
    have torn := tearsDown_act build hl (hs.live hl).2 ha
    rw [torn.tab] at live
    exact absurd (live.symm.trans (Act.isLive_stageAfter ha undropped _)) (by simp)

theorem keyless_connect (build : Build) (l : ParentLink) (s : Seat σ) :
    Keyless s (connect build l s) := by
  unfold connect
  split
  · exact .of_silent rfl rfl
  · exact .of_silent (by rw [Outcome.state_violation]) (Outcome.trace_violation ..)

/-- What enters a tab that stays live has nothing to do with keys, and leaves its id and its
settings alone, unless a key event is delivered. -/
theorem keyless_enter (build : Build) (hs : s.tab.Sound) (hl : s.tab.state.isLive = true)
    (undropped : en ≠ .act .drop) (live : (enter build en s).state.tab.state.isLive = true)
    (hk : en.key? = none) : Keyless s (enter build en s) := by
  cases ha : en.act? s.tab.id with
  | none =>
    cases en with
    | connect l => exact keyless_connect build l s
    | _ => cases ha
  | some a =>
    rw [enter_of_live build hl ha] at live ⊢
    have kept : a ≠ .drop := by
      rintro rfl
      exact undropped (Entry.eq_act_of_act? ha (by simp))
    refine keyless_act build hl (spared_of_live build hs hl kept live) ?_
    cases en <;> cases ha
    · exact hk
    · rfl
    · rfl

/-- What enters a tab that stays live leaves its id and its settings alone. -/
theorem keeps_enter (build : Build) (hs : s.tab.Sound) (hl : s.tab.state.isLive = true)
    (undropped : en ≠ .act .drop) (live : (enter build en s).state.tab.state.isLive = true) :
    (enter build en s).state.tab.id = s.tab.id ∧
      (enter build en s).state.tab.settings = s.tab.settings := by
  cases ha : en.act? s.tab.id with
  | none =>
    cases en with
    | connect l =>
      rw [enter, connect]
      split
      · exact ⟨rfl, rfl⟩
      · rw [Outcome.state_violation]
        exact ⟨rfl, rfl⟩
    | _ => cases ha
  | some a =>
    rw [enter_of_live build hl ha] at live ⊢
    have kept : a ≠ .drop := by
      rintro rfl
      exact undropped (Entry.eq_act_of_act? ha (by simp))
    obtain ⟨id, settings, -⟩ := keeps_act build hl (spared_of_live build hs hl kept live)
    exact ⟨id, settings⟩

/-- A key event that enters a live tab is handled. -/
theorem enter_of_key? (build : Build) (hl : s.tab.state.isLive = true) (hk : en.key? = some e) :
    enter build en s = keyEvent e s := by
  cases en with
  | act a =>
    rw [enter_of_live build hl rfl]
    cases a with
    | request envelope =>
      obtain ⟨tab, channel, priority, request⟩ := envelope
      cases request with
      | key k =>
        cases hk
        simp only [act, handle, hl, if_true, handleLive]
      | _ => cases hk
    | _ => cases hk
  | _ => cases hk

/-- What an operation comes to that handles a key event: a keystroke as the filter has it. -/
structure Strikes (e : KeyEvent) (s : Seat σ) (k : Keystroke) (o : Outcome Effect (Seat σ)) :
    Prop where
  event : k.event = e
  finished : k.finished = o.state.shared.clock
  handed : keyed s.tab.id o.trace = k.answer.toList.map fun status => (e, status)
  decides : s.tab.keys.Decides s.tab.settings.skipRepeats k
  keys : o.state.tab.keys = s.tab.keys.after s.tab.settings.skipRepeats k

theorem strikes_heedKey (e : KeyEvent) (fault : (heedKey e s).fault = none) :
    ∃ k, Strikes e s k (heedKey e s) := by
  rcases heedKey_cases e s with ⟨dropped, heq⟩ | ⟨kept, heq⟩
  · refine ⟨{ event := e, answer := none, finished := (heedKey e s).state.shared.clock }, rfl, rfl,
      ?_, iff_of_true rfl dropped, ?_⟩
    · rw [heq]
      rfl
    · rw [heq]
      rfl
  · rw [heq] at fault
    obtain ⟨status, dispatched⟩ : ∃ status, Dispatches e _ status _ :=
      ⟨_, dispatches_dispatchKey e fault⟩
    refine ⟨{ event := e, answer := some status, finished := (heedKey e s).state.shared.clock },
      rfl, rfl, ?_, iff_of_false (by simp) ?_, ?_⟩
    · rw [heq]
      exact dispatched.handed
    · exact fun dropped => absurd (kept.symm.trans dropped) (by simp)
    · rw [heq]
      exact dispatched.keys

theorem strikes_keyEvent (e : KeyEvent) (fault : (keyEvent e s).fault = none) :
    ∃ k, Strikes e s k (keyEvent e s) := by
  rw [keyEvent_eq] at fault ⊢
  obtain ⟨flushed, heeded⟩ := Outcome.fault_andThen_eq_none_iff.mp fault
  have keyless := keyless_flushInput s
  have standing := (feeds_flushInput s).standing
  generalize flushInput s = o at *
  have id : o.state.tab.id = s.tab.id := congrArg Standing.id standing
  have settings : o.state.tab.settings = s.tab.settings := congrArg Standing.settings standing
  obtain ⟨k, event, finished, handed, decides, keys⟩ := strikes_heedKey e heeded
  rw [keyless.keys, settings] at decides keys
  refine ⟨k, event, ?_, ?_, decides, ?_⟩
  · rw [Outcome.state_andThen flushed]
    exact finished
  · rw [Outcome.trace_andThen flushed, keyed_append, keyless.keyed, ← id]
    exact handed
  · rw [Outcome.state_andThen flushed]
    exact keys

end Seat

namespace Tab

variable {build : Build} {t : Tab σ} {x : Visit} {xs : List Visit} {e : KeyEvent}

/-! ## The keystrokes of a run -/

/-- The keystroke of a visit that delivers a key event. -/
def stroke? (build : Build) (t : Tab σ) (x : Visit) : Option Keystroke :=
  x.entry.key?.map fun e =>
    { event := e
      answer := (keyed t.id (t.visit build x).trace).head?.map Prod.snd
      finished := (Seat.enter build x.entry (t.receive x)).state.shared.clock }

/-- The keystrokes of some visits. -/
def strokes (build : Build) : List Visit → Tab σ → List Keystroke
  | [], _ => []
  | x :: rest, t => (t.stroke? build x).toList ++ strokes build rest (t.visit build x).state

theorem strokes_append (build : Build) {xs : List Visit} {t : Tab σ}
    (hf : (t.visits build xs).fault = none) (ys : List Visit) :
    t.strokes build (xs ++ ys) =
      t.strokes build xs ++ (t.visits build xs).state.strokes build ys := by
  induction xs generalizing t with
  | nil => rfl
  | cons x xs ih =>
    obtain ⟨first, later⟩ := Outcome.fault_andThen_eq_none_iff.mp hf
    rw [List.cons_append, strokes, strokes, visits, Outcome.state_andThen first, ih later,
      List.append_assoc]

theorem strokes_singleton (build : Build) (x : Visit) (t : Tab σ) :
    t.strokes build [x] = (t.stroke? build x).toList :=
  List.append_nil _

/-- What comes of a visit that delivers a key event. -/
structure Strikes (build : Build) (t : Tab σ) (x : Visit) (e : KeyEvent) (k : Keystroke) :
    Prop where
  stroke : t.stroke? build x = some k
  event : k.event = e
  handed : keyed t.id (t.visit build x).trace = k.answer.toList.map fun status => (e, status)
  decides : t.keys.Decides t.settings.skipRepeats k
  keys : (t.visit build x).state.keys = t.keys.after t.settings.skipRepeats k

/-- A live tab handles a key event that is delivered to it. -/
theorem strikes_visit (live : t.state.isLive = true) (fault : (t.visit build x).fault = none)
    (hk : x.entry.key? = some e) : ∃ k, t.Strikes build x e k := by
  have handles := Seat.enter_of_key? build (s := t.receive x) live hk
  have ended : (Seat.keyEvent e (t.receive x)).fault = none := handles ▸ fault
  obtain ⟨k, strikes⟩ := Seat.strikes_keyEvent e ended
  rw [← handles] at strikes
  have handed : keyed t.id (t.visit build x).trace = _ := strikes.handed
  refine ⟨k, ?_, strikes.event, handed, strikes.decides, strikes.keys⟩
  rw [stroke?, hk, Option.map_some, handed, ← strikes.finished, ← strikes.event]
  obtain ⟨event, answer, finished⟩ := k
  cases answer <;> rfl

/-- Content is handed a key event once, or it is withheld. -/
theorem Strikes.once {k : Keystroke} (h : t.Strikes build x e k) :
    keyed t.id (t.visit build x).trace = [] ∨
      ∃ status, keyed t.id (t.visit build x).trace = [(e, status)] := by
  rw [h.handed]
  cases k.answer with
  | none => exact Or.inl rfl
  | some status => exact Or.inr ⟨status, rfl⟩

theorem Strikes.withheld_iff {k : Keystroke} (h : t.Strikes build x e k) :
    keyed t.id (t.visit build x).trace = [] ↔ t.drops e = true := by
  rw [← h.event]
  refine Iff.trans ?_ h.decides
  rw [h.handed]
  cases k.answer <;> simp

/-- A tab that stays live goes from keystroke to keystroke, and keeps its id and its settings. -/
theorem keys_visit (hs : t.Sound) (undropped : x.entry ≠ .act .drop)
    (live : (t.visit build x).state.state.isLive = true)
    (fault : (t.visit build x).fault = none) :
    (t.visit build x).state.id = t.id ∧ (t.visit build x).state.settings = t.settings ∧
      match t.stroke? build x with
      | none => (t.visit build x).state.keys = t.keys
      | some k => t.keys.Decides t.settings.skipRepeats k ∧
        (t.visit build x).state.keys = t.keys.after t.settings.skipRepeats k := by
  have before : t.state.isLive = true := live_of_visit build hs live
  obtain ⟨id, settings⟩ := Seat.keeps_enter build (s := t.receive x) hs before undropped live
  refine ⟨id, settings, ?_⟩
  cases hk : x.entry.key? with
  | none =>
    have none : t.stroke? build x = none := by rw [stroke?, hk]; rfl
    rw [none]
    exact (Seat.keyless_enter build (s := t.receive x) hs before undropped live hk).keys
  | some e =>
    obtain ⟨k, strikes⟩ := strikes_visit before fault hk
    rw [strikes.stroke]
    exact ⟨strikes.decides, strikes.keys⟩

/-- A tab that is live after some visits, one by one. -/
theorem live_visits_concat (hs : t.Sound) (kept : ∀ y ∈ xs ++ [x], y.entry ≠ .act .drop)
    (fault : (t.visits build (xs ++ [x])).fault = none)
    (live : (t.visits build (xs ++ [x])).state.state.isLive = true) :
    (∀ y ∈ xs, y.entry ≠ .act .drop) ∧ x.entry ≠ .act .drop ∧
      (t.visits build xs).fault = none ∧
      ((t.visits build xs).state.visit build x).fault = none ∧
      (t.visits build xs).state.Sound ∧
      (t.visits build xs).state.state.isLive = true ∧
      ((t.visits build xs).state.visit build x).state.state.isLive = true := by
  have kept' : ∀ y ∈ xs, y.entry ≠ .act .drop := fun y hy => kept y (List.mem_append_left _ hy)
  have sound := sound_visits build hs kept'
  rw [visits_append, Outcome.fault_andThen_eq_none_iff, visits_singleton] at fault
  rw [visits_append, Outcome.state_andThen fault.1, visits_singleton] at live
  refine ⟨kept', kept x (by simp), fault.1, fault.2, sound, ?_, live⟩
  exact live_of_visit build sound live

/-! ## Repeats -/

/-- If repeats are skipped, the filter of a tab remembers the end of the last repeat. -/
theorem remembers_visits (build : Build) (id : TabId) {settings : Settings} (content : σ)
    (on : settings.skipRepeats = true) {xs : List Visit}
    (kept : ∀ y ∈ xs, y.entry ≠ .act .drop)
    (fault : ((create id settings content).visits build xs).fault = none)
    (live : ((create id settings content).visits build xs).state.state.isLive = true) :
    ((create id settings content).visits build xs).state.settings = settings ∧
      ((create id settings content).visits build xs).state.keys.Remembers
        ((create id settings content).strokes build xs) := by
  induction xs using List.reverseRecOn with
  | nil => exact ⟨rfl, KeyFilter.remembers_nil⟩
  | append_singleton xs x ih =>
    obtain ⟨kept', undropped, before, ended, sound, live', later⟩ :=
      live_visits_concat (sound_create id settings content) kept fault live
    obtain ⟨settings', remembers⟩ := ih kept' before live'
    obtain ⟨-, same, keys⟩ := keys_visit sound undropped later ended
    rw [visits_append, Outcome.state_andThen before, visits_singleton, strokes_append build before,
      strokes_singleton]
    refine ⟨same.trans settings', ?_⟩
    rw [settings', on] at keys
    cases hk : ((create id settings content).visits build xs).state.stroke? build x with
    | none =>
      simp only [hk] at keys
      rw [Option.toList_none, List.append_nil, keys]
      exact remembers
    | some k =>
      simp only [hk] at keys
      rw [Option.toList_some, keys.2]
      exact remembers.concat keys.1

/-- What becomes of a key event if repeats are skipped, after certain keystrokes. -/
structure SkipsWhenBehind (build : Build) (t : Tab σ) (log : List Keystroke) (x : Visit)
    (e : KeyEvent) : Prop where
  /-- It is handed to content once, or withheld. -/
  once : keyed t.id (t.visit build x).trace = [] ∨
    ∃ status, keyed t.id (t.visit build x).trace = [(e, status)]
  /-- A keydown is withheld just if content is behind. -/
  keydown : e.action = .down → (keyed t.id (t.visit build x).trace = [] ↔ Behind log e)
  /-- A key that goes up, or is not skippable, is never skipped as a repeat. -/
  unskipped : e.action = .up ∨ e.skippable = false → t.keys.skips e = false
  /-- It is withheld only as a keypress of a keydown that content consumed. -/
  delivered : e.action = .up ∨ e.skippable = false →
    (keyed t.id (t.visit build x).trace = [] ↔ e.action = .press ∧ t.keys.ignoresPress = true)

/-- Whatever entered a live tab before, if it skips repeats: a keydown that is handled is withheld
from content just if it is skippable and was sent before content was done with the last repeat. -/
theorem skips_when_behind (build : Build) (id : TabId) {settings : Settings} (content : σ)
    (on : settings.skipRepeats = true) {before : List Visit} {x : Visit} {e : KeyEvent}
    (kept : ∀ y ∈ before, y.entry ≠ .act .drop)
    (fault : ((create id settings content).visits build before).fault = none)
    (live : ((create id settings content).visits build before).state.state.isLive = true)
    (delivers : x.entry.key? = some e)
    (handled : (((create id settings content).visits build before).state.visit build x).fault =
      none) :
    ((create id settings content).visits build before).state.SkipsWhenBehind build
      ((create id settings content).strokes build before) x e := by
  obtain ⟨settings', remembers⟩ := remembers_visits build id content on kept fault live
  generalize ((create id settings content).visits build before).state = t at *
  obtain ⟨k, strikes⟩ := strikes_visit live handled delivers
  have drops := drops_iff (t := t) (e := e)
  have unskipped : e.action = .up ∨ e.skippable = false → t.keys.skips e = false := by
    rintro (up | unskippable)
    · exact KeyFilter.skips_up up
    · rw [← Bool.not_eq_true]
      intro skips
      rw [KeyFilter.skippable_of_skips skips] at unskippable
      cases unskippable
  refine ⟨strikes.once, fun down => ?_, unskipped, fun spared => ?_⟩
  · rw [strikes.withheld_iff, drops, settings', ← remembers.skips_iff down]
    simp [on, down]
  · rw [strikes.withheld_iff, drops, unskipped spared]
    simp

/-- A tab that skips repeats, with content that takes its time over each event. -/
def slow : Tab Headless := create { value := 7 } {} { cost := .ofNanos 50 }

/-- A key that is held, at an instant. -/
def repeated (at_ : UInt64) : KeyEvent :=
  { action := .down, key := .character "j", isRepeat := true, skippable := true,
    timestamp := .ofNanos at_ }

/-- A visit that delivers a key event. -/
def keyVisit (e : KeyEvent) : Visit :=
  { around := {}, entry := .act (.request { tab := { value := 7 }, request := .key e }) }

/-- A repeat that was sent before content was done with the one before is withheld. -/
theorem skips_when_behind_slow :
    keyed ⟨7⟩ ((slow.visits .checked [keyVisit (repeated 0)]).state.visit .checked
        (keyVisit (repeated 30))).trace = [] ∧
      Behind (slow.strokes .checked [keyVisit (repeated 0)]) (repeated 30) := by
  have kept : ∀ y ∈ [keyVisit (repeated 0)], y.entry ≠ .act .drop := by simp [keyVisit]
  have on : ({} : Settings).skipRepeats = true := rfl
  have skips := skips_when_behind .checked { value := 7 }
    ({ cost := .ofNanos 50 } : Headless) on kept (by rfl) (by rfl)
    (x := keyVisit (repeated 30)) (e := repeated 30) rfl (by rfl)
  have withheld : keyed ⟨7⟩ ((slow.visits .checked [keyVisit (repeated 0)]).state.visit .checked
      (keyVisit (repeated 30))).trace = [] := by rfl
  exact ⟨withheld, (skips.keydown rfl).mp withheld⟩

/-! ## Keypresses -/

theorem key?_of_stroke? {k : Keystroke} (h : t.stroke? build x = some k) :
    x.entry.key? = some k.event := by
  obtain ⟨e, hk, rfl⟩ := Option.map_eq_some_iff.mp h
  exact hk

/-- What the filter keeps at key events of a kind is kept as long as no others come. -/
theorem keys_preserves (build : Build) {P : KeyFilter → Prop} {kind : KeyEvent → Prop}
    (step : ∀ f k, P f → kind k.event → KeyFilter.Decides t.settings.skipRepeats f k →
      P (f.after t.settings.skipRepeats k))
    (hs : t.Sound) (kept : ∀ y ∈ xs, y.entry ≠ .act .drop)
    (fault : (t.visits build xs).fault = none)
    (live : (t.visits build xs).state.state.isLive = true)
    (only : ∀ y ∈ xs, ∀ e, y.entry.key? = some e → kind e) (h : P t.keys) :
    (t.visits build xs).state.settings = t.settings ∧ P (t.visits build xs).state.keys := by
  induction xs using List.reverseRecOn with
  | nil => exact ⟨rfl, h⟩
  | append_singleton xs x ih =>
    obtain ⟨kept', undropped, before, ended, sound, live', later⟩ :=
      live_visits_concat hs kept fault live
    obtain ⟨settings, holds⟩ :=
      ih kept' before live' fun y hy => only y (List.mem_append_left _ hy)
    obtain ⟨-, same, keys⟩ := keys_visit sound undropped later ended
    rw [visits_append, Outcome.state_andThen before, visits_singleton]
    refine ⟨same.trans settings, ?_⟩
    rw [settings] at keys
    cases hk : (t.visits build xs).state.stroke? build x with
    | none =>
      simp only [hk] at keys
      rw [keys]
      exact holds
    | some k =>
      simp only [hk] at keys
      rw [keys.2]
      exact step _ k holds (only x (by simp) k.event (key?_of_stroke? hk)) keys.1

/-- A keypress, which may be skipped if a keydown may be. -/
structure Follows (d p : KeyEvent) : Prop where
  press : p.action = .press
  skippable : d.skippable = true → p.skippable = true

/-- A keydown that is delivered to a tab `t` in the visit `x`, and a keypress that is delivered in
the visit `y`, when it has become a tab `u`. -/
structure SharesFate (build : Build) (t u : Tab σ) (x y : Visit) (d p : KeyEvent) : Prop where
  /-- The keypress is handed to content once, or withheld. -/
  once : keyed u.id (u.visit build y).trace = [] ∨
    ∃ status, keyed u.id (u.visit build y).trace = [(p, status)]
  /-- It is handed to content just if the keydown was, and was not consumed. -/
  fate : (∃ status, keyed u.id (u.visit build y).trace = [(p, status)]) ↔
    ∃ status, keyed t.id (t.visit build x).trace = [(d, status)] ∧ status ≠ .consumeNoDefault

theorem Strikes.sharesFate {u : Tab σ} {y : Visit} {d p : KeyEvent} {k k' : Keystroke}
    (down : t.Strikes build x d k) (press : u.Strikes build y p k')
    (fate : k'.answer ≠ none ↔ ∃ status, k.answer = some status ∧ status ≠ .consumeNoDefault) :
    SharesFate build t u x y d p := by
  refine ⟨press.once, ?_⟩
  rw [down.handed, press.handed]
  refine Iff.trans ?_ (fate.trans ?_)
  · cases k'.answer <;> simp
  · cases k.answer <;> simp

/-- Whatever entered a live tab before, and whether it skips repeats or not: a keypress that comes
after a keydown, with nothing but such keypresses between them as far as keys are concerned, is
handed to content just if the keydown was, and was not consumed. -/
theorem keypress_shares_fate (build : Build) (id : TabId) (settings : Settings) (content : σ)
    {before xs : List Visit} {x y : Visit} {d p : KeyEvent}
    (kept : ∀ z ∈ before ++ x :: xs, z.entry ≠ .act .drop)
    (fault : ((create id settings content).visits build (before ++ x :: xs)).fault = none)
    (live : ((create id settings content).visits build
      (before ++ x :: xs)).state.state.isLive = true)
    (keydown : x.entry.key? = some d) (down : d.action = .down)
    (between : ∀ z ∈ xs, ∀ q, z.entry.key? = some q → Follows d q)
    (keypress : y.entry.key? = some p) (follows : Follows d p)
    (handled : (((create id settings content).visits build (before ++ x :: xs)).state.visit build
      y).fault = none) :
    SharesFate build ((create id settings content).visits build before).state
      ((create id settings content).visits build (before ++ x :: xs)).state x y d p := by
  have sound := sound_visits build (sound_create id settings content)
    fun z hz => kept z (List.mem_append_left (x :: xs) hz)
  rw [visits_append, Outcome.fault_andThen_eq_none_iff] at fault
  rw [visits_append, Outcome.state_andThen fault.1] at live handled ⊢
  generalize ((create id settings content).visits build before).state = t at *
  obtain ⟨-, ended⟩ := fault
  rw [visits, Outcome.fault_andThen_eq_none_iff] at ended
  rw [visits, Outcome.state_andThen ended.1] at live handled ⊢
  have undropped : x.entry ≠ .act .drop := kept x (by simp)
  have kept' : ∀ z ∈ xs, z.entry ≠ .act .drop := fun z hz => kept z (by simp [hz])
  have sound' := sound_visit build sound undropped
  have live' := live_of_visits build sound' live
  have begun : t.state.isLive = true := live_of_visit build sound live'
  obtain ⟨k, strikes⟩ := strikes_visit begun ended.1 keydown
  obtain ⟨k', strikes'⟩ := strikes_visit live handled keypress
  obtain ⟨-, same, -⟩ := keys_visit sound undropped live' ended.1
  have press : k'.event.action = .press := strikes'.event ▸ follows.press
  have decides' := strikes'.decides
  refine strikes.sharesFate strikes' ?_
  rcases KeyFilter.presses_after_down strikes.decides (strikes.event ▸ down) with
    ⟨lets, delivered⟩ | ⟨holds, undelivered⟩
  · rw [← strikes.keys, ← same] at lets
    obtain ⟨same', lets'⟩ := keys_preserves build
      (fun _ _ lets follows decides => (lets.press decides follows.press).2)
      sound' kept' ended.2 live between lets
    rw [same'] at decides'
    exact iff_of_true (lets'.press decides' press).1 delivered
  · rw [← strikes.keys, ← same, strikes.event] at holds
    obtain ⟨same', holds'⟩ := keys_preserves build
      (fun _ _ holds follows decides => (holds.press decides follows.press follows.skippable).2)
      sound' kept' ended.2 live between holds
    rw [same'] at decides'
    exact iff_of_false (not_not_intro (holds'.press decides' press
      (strikes'.event ▸ follows.skippable)).1) undelivered

/-- Behind a keydown that content was handed and ignored, the second keypress is handed to it
too. -/
theorem keypress_shares_fate_ignored : ∃ status,
    keyed ⟨7⟩ (((create { value := 7 } {} ({} : Headless)).visits .checked
      [keyVisit (pressed .down), keyVisit (pressed .press)]).state.visit .checked
        (keyVisit (pressed .press))).trace = [(pressed .press, status)] := by
  have follows : Follows (pressed .down) (pressed .press) := ⟨rfl, fun h => by cases h⟩
  have kept : ∀ z ∈ [] ++ keyVisit (pressed .down) :: [keyVisit (pressed .press)],
      z.entry ≠ .act .drop := by simp [keyVisit]
  have between : ∀ z ∈ [keyVisit (pressed .press)], ∀ q, z.entry.key? = some q →
      Follows (pressed .down) q := by
    intro z hz q hq
    rw [List.mem_singleton.mp hz] at hq
    cases hq
    exact follows
  have shares := keypress_shares_fate .checked { value := 7 } {} ({} : Headless) kept (by rfl)
    (by rfl) (d := pressed .down) rfl rfl between (y := keyVisit (pressed .press)) rfl follows
    (by rfl)
  exact shares.fate.mpr ⟨.ignore, by rfl, by decide⟩

end Tab

end TabHost
