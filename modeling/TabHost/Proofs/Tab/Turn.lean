import TabHost.Proofs.Tab.Frame

/-!
# What is done to a tab

An `Act` is one thing that a host does to a tab, and a `Turn` is an act together with what
the tab shares with others at that time. Whatever goes on around a tab, its history is a
list of turns (`Tab.turns`).

A live tab goes about its work in every act that neither tears it down nor concerns the
other end of its link (`Seat.works_act`).
-/

set_option linter.unusedSectionVars false

namespace TabHost

/-- Something that is done to a tab. -/
inductive Act where
  /-- An envelope is delivered to it. -/
  | request (e : Envelope)
  /-- The host is idle, and the tab dispatches what it kept back. -/
  | flush
  | addBlocker
  | removeBlocker
  /-- Its destruction is asked for by the host itself. -/
  | destroy
  /-- A pass of a delayed delete. -/
  | pass (d : DeletePass)
  /-- Content pushes an event into it, outside of any dispatch. -/
  | push (e : PointerEvent)
  /-- The other end of a link of its own goes away. -/
  | hangUp
  /-- It is dropped. -/
  | drop

namespace Act

/-- Whether an act asks for the destruction of the tab. -/
def asksDestroy : Act → Bool
  | .destroy => true
  | .request { request := .destroy, .. } => true
  | _ => false

/-- Whether an act reports that the link is lost. -/
def losesLink : Act → Bool
  | .request { request := .channelClosed, .. } => true
  | _ => false

/-- Whether an act tears a live tab down. -/
def tearsDown : Act → Bool
  | .drop => true
  | a => a.asksDestroy || a.losesLink

theorem tearsDown_eq {a : Act} (hd : a ≠ .drop) : a.tearsDown = (a.asksDestroy || a.losesLink) := by
  cases a with
  | drop => exact absurd rfl hd
  | _ => rfl

theorem losesLink_of_asksDestroy {a : Act} (h : a.asksDestroy = true) : a.losesLink = false := by
  cases a with
  | request e =>
    obtain ⟨tab, channel, priority, request⟩ := e
    cases request with
    | channelClosed => cases h
    | _ => rfl
  | _ => rfl

/-- The stage of life in which an act leaves a live tab that it tears down. -/
def stageAfter (a : Act) (stage : Lifecycle) : Lifecycle :=
  if a.asksDestroy then .destroying else if a.losesLink then .deleted else stage

/-- A tab that is torn down is not live any more, unless it is just dropped. -/
theorem isLive_stageAfter {a : Act} (ha : a.tearsDown = true) (hd : a ≠ .drop)
    (stage : Lifecycle) : (a.stageAfter stage).isLive = false := by
  have either : (a.asksDestroy || a.losesLink) = true := (tearsDown_eq hd).symm.trans ha
  unfold stageAfter
  split
  · rfl
  · next h => rw [if_pos (by simpa [h] using either)]; rfl

/-- Whether an act comes from the other end of the link. -/
def isHangUp : Act → Bool
  | .hangUp => true
  | _ => false

end Act

namespace Seat

variable {σ : Type} [Content σ]

/-- The other end of the link goes away, if the link is one of the tab's own. -/
def hangUp : Operation σ := fun s =>
  if s.tab.link.any fun l => l.route = .own then .ok { s with tab := s.tab.hangUp } else .ok s

/-- Does something to a tab. -/
def act (build : Build) : Act → Operation σ
  | .request e => handle build e
  | .flush => flushInput
  | .addBlocker => addBlocker build
  | .removeBlocker => removeBlocker build
  | .destroy => destroy build
  | .pass d => runDelete d
  | .push e => fun s => .ok { s with tab := s.tab.push e }
  | .hangUp => hangUp
  | .drop => destroyWindow

/-- All that a tab may be called for while it is live. -/
abbrev WorksOn (s : Seat σ) (o : Outcome Effect (Seat σ)) : Prop :=
  Works (fun c => c ≠ .notice .destroy) (fun r => r ≠ .channelClose) s o

variable {s : Seat σ} {o : Outcome Effect (Seat σ)}

theorem Feeds.works (h : Feeds s o) : WorksOn s o := by
  refine h.toWorks.mono (fun c hc => ?_) fun r hr => ?_
  · rintro rfl
    cases hc
  · obtain ⟨e, p, rfl⟩ := hr
    simp

theorem Notifies.works (h : Notifies s o) : WorksOn s o := by
  refine h.toWorks.mono (fun c hc => ?_) fun r hr => ?_
  · obtain ⟨n, hn, rfl⟩ := hc
    simpa using hn
  · obtain ⟨e, rfl⟩ := hr
    simp

/-- A live tab does with a request one of the things it does to go about its work, unless
the request tears it down. -/
theorem feeds_or_notifies_request (build : Build) {e : Envelope} {s : Seat σ}
    (hl : s.tab.state.isLive = true) (ha : (Act.request e).tearsDown = false) :
    Feeds s (act build (.request e) s) ∨ Notifies s (act build (.request e) s) := by
  obtain ⟨tab, channel, priority, request⟩ := e
  simp only [act, handle, hl, if_true, handleLive]
  cases request with
  | destroy => simp [Act.tearsDown, Act.asksDestroy] at ha
  | channelClosed => simp [Act.tearsDown, Act.losesLink] at ha
  | setRenderState enabled force epoch =>
    exact Or.inr (notifies_requestRender enabled force epoch s)
  | paintWhileInterrupting epoch force =>
    exact Or.inr (notifies_paintWhileInterrupting epoch force s)
  | setActive active => exact Or.inr (notifies_setActive active s)
  | initRendering surface => exact Or.inr (notifies_initRendering surface s)
  | pointerMove m => exact Or.inl (feeds_pointerMove m s)
  | synthPointerMove m => exact Or.inl (feeds_pointerEvent _ s)
  | button b => exact Or.inl (feeds_pointerEvent _ s)
  | wheel w => exact Or.inl (feeds_wheelEvent w _ s)
  | key k => exact Or.inl (feeds_keyEvent k s)

/-- A live tab is not in the course of a delete. -/
theorem runDelete_of_live (d : DeletePass) {s : Seat σ} (hl : s.tab.state.isLive = true) :
    runDelete d s = .ok s := by
  unfold runDelete
  split
  · next h _ => simp [h, Lifecycle.isLive] at hl
  · next h _ => simp [h, Lifecycle.isLive] at hl
  · rfl

/-- A live tab goes about its work, whatever is done to it short of tearing it down. -/
theorem works_act (build : Build) {a : Act} {s : Seat σ} (hl : s.tab.state.isLive = true)
    (ha : a.tearsDown = false) (hh : a.isHangUp = false) : WorksOn s (act build a s) := by
  cases a with
  | request e =>
    rcases feeds_or_notifies_request build hl ha with h | h
    · exact h.works
    · exact h.works
  | flush => exact (feeds_flushInput s).works
  | addBlocker => exact (notifies_addBlocker build s).works
  | removeBlocker => exact (notifies_removeBlocker build s).works
  | destroy => simp [Act.tearsDown, Act.asksDestroy] at ha
  | pass d =>
    rw [act, runDelete_of_live d hl]
    exact .ok s
  | push e =>
    refine ⟨rfl, ?_, rfl, .refl _ _, fun e he => absurd he List.not_mem_nil⟩
    simp [act, Outcome.ok, Tab.push]
  | hangUp => simp [Act.isHangUp] at hh
  | drop => simp [Act.tearsDown] at ha

end Seat

/-! ## Turns -/

/-- Something that is done to a tab, and what the tab shares with others at that time. -/
structure Turn where
  around : Shared
  act : Act

namespace Tab

variable {σ : Type} [Content σ]

/-- The tab with what it shares with others in a turn. -/
def seat (x : Turn) (t : Tab σ) : Seat σ := { tab := t, shared := x.around }

/-- What becomes of a tab in a turn. -/
def turn (build : Build) (x : Turn) (t : Tab σ) : Outcome Effect (Tab σ) :=
  (Seat.act build x.act (t.seat x)).map Seat.tab

/-- What becomes of a tab in some turns. -/
def turns (build : Build) : List Turn → Tab σ → Outcome Effect (Tab σ)
  | [], t => .ok t
  | x :: rest, t => (t.turn build x).andThen (turns build rest)

theorem turns_append (build : Build) (xs ys : List Turn) (t : Tab σ) :
    t.turns build (xs ++ ys) = (t.turns build xs).andThen (turns build ys) := by
  induction xs generalizing t with
  | nil => rfl
  | cons x xs ih =>
    simp only [List.cons_append, turns, Outcome.andThen_assoc]
    congr 1
    funext t
    exact ih t

theorem turns_singleton (build : Build) (x : Turn) (t : Tab σ) :
    t.turns build [x] = t.turn build x :=
  Outcome.andThen_ok _

/-- If some turns came to an end without a fault, so did those before. -/
theorem fault_of_append {build : Build} {xs ys : List Turn} {t : Tab σ}
    (h : (t.turns build (xs ++ ys)).fault = none) : (t.turns build xs).fault = none := by
  rw [turns_append] at h
  exact (Outcome.fault_andThen_eq_none_iff.mp h).1

end Tab

end TabHost
