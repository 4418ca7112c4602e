import Mathlib.Data.List.Basic
import TabHost.Proofs.Host.History
import TabHost.Proofs.Replay.Script
import TabHost.Proofs.Tab.Dialogue
import TabHost.Replay.Session

/-!
# Sessions and scripts

A session reads a line, applies its step and writes what the tabs sent before it reads the next
line; a script can also be parsed as a whole and its steps applied one after the other
(`Replay.applyAll`). The two come to the same (`Session.replays`): a script that can be parsed is
replayed by its steps, and one that cannot is replayed up to the line that is to blame, of which
both tell the number.

A replay creates its tabs over links into the stream that they share (`Host.SpeaksShared`), so
all that they send is written, in the order in which it is sent.
-/

set_option linter.unusedSectionVars false

namespace TabHost

/-! ## Messages -/

/-- The message that is sent, whatever the way. -/
def Effect.message? : Effect → Option Outgoing
  | .sent _ o => some o
  | _ => none

/-- The messages that are sent in a trace, in their order. -/
def messagesIn (trace : List Effect) : List Outgoing := trace.filterMap Effect.message?

theorem messagesIn_append (a b : List Effect) :
    messagesIn (a ++ b) = messagesIn a ++ messagesIn b :=
  List.filterMap_append ..

/-- Nothing of a trace is sent but into the shared stream. -/
def SentShared (trace : List Effect) : Prop := ∀ route o, .sent route o ∈ trace → route = .shared

theorem sentShared_nil : SentShared [] := fun _ _ he => absurd he List.not_mem_nil

theorem SentShared.append {a b : List Effect} (ha : SentShared a) (hb : SentShared b) :
    SentShared (a ++ b) :=
  fun route o he => (List.mem_append.mp he).elim (ha route o) (hb route o)

/-- What is sent into the shared stream is all that is sent. -/
theorem Outcome.outgoing_of_sentShared {α : Type} {o : Outcome Effect α}
    (ho : SentShared o.trace) : o.outgoing = messagesIn o.trace := by
  refine List.filterMap_congr fun e he => ?_
  cases e with
  | created | call => rfl
  | sent route m =>
    cases ho route m he
    rfl

/-! ## Hosts that speak into the shared stream -/

/-- Whether an event neither opens a link of a tab's own nor ends all tabs. -/
def Event.isPlain {σ : Type} : Event σ → Bool
  | .createOver _ _ _ => false
  | .shutdown => false
  | _ => true

namespace Host

variable {σ : Type} [Content σ] {h : Host σ} {ev : Event σ}

/-- All links of a host lead into the stream that its tabs share. -/
structure SpeaksShared (h : Host σ) : Prop where
  sound : h.Sound
  links : ∀ tab t, h.tabs.get? tab = some t → t.IsShared

theorem sentShared_step (build : Build) (ev : Event σ) (hs : h.SpeaksShared)
    (plain : ev.isPlain = true) :
    SentShared (h.step build ev).trace ∧ (h.step build ev).state.SpeaksShared := by
  have sound := sound_step build hs.sound ev
  cases stepCase build hs.sound ev with
  | quiet _ _ tabs trace =>
    rw [trace]
    exact ⟨sentShared_nil, sound, tabs ▸ hs.links⟩
  | created tab content link _ shared event _ state =>
    obtain ⟨c, rfl⟩ : ∃ c, ev = .create tab c := by
      rcases event with he | ⟨c, heard, rfl⟩
      · exact he
      · cases plain
    rw [state] at sound ⊢
    refine ⟨fun route o he => (by cases List.mem_singleton.mp he), sound, fun other t ht => ?_⟩
    by_cases hk : other = tab
    · subst hk
      cases (Table.get?_insert_self _ _ _).symm.trans ht
      rw [shared c rfl]
      intro l hl
      cases hl
      rfl
    · exact hs.links other t ((Table.get?_insert_of_ne hk _ _).symm.trans ht)
  | acted d t _ htab _ acts =>
    obtain ⟨link, sent⟩ := Tab.isShared_turn build (x := { around := d.around, act := d.act })
      (hs.sound d.tab t htab).1 (hs.links d.tab t htab)
    refine ⟨acts.trace ▸ sent, sound, fun other t' ht' => ?_⟩
    by_cases hk : other = d.tab
    · subst hk
      rcases acts.own with own | ⟨gone, -⟩
      · cases own.symm.trans ht'
        exact link
      · cases gone.symm.trans ht'
    · exact hs.links other t' (acts.others other hk ▸ ht')
  | shut event =>
    subst event
    cases plain

theorem sentShared_runs (build : Build) {evs : List (Event σ)} (hs : h.SpeaksShared)
    (plain : ∀ ev ∈ evs, ev.isPlain = true) :
    SentShared (h.runs build evs).trace ∧ (h.runs build evs).state.SpeaksShared := by
  induction evs generalizing h with
  | nil => exact ⟨sentShared_nil, hs⟩
  | cons ev rest ih =>
    obtain ⟨sent, hs'⟩ := sentShared_step build ev hs (plain ev List.mem_cons_self)
    rw [runs]
    cases hf : (h.step build ev).fault with
    | some f =>
      rw [Outcome.andThen_of_fault hf]
      exact ⟨sent, hs'⟩
    | none =>
      obtain ⟨later, hs''⟩ := ih hs' fun ev' he => plain ev' (List.mem_cons_of_mem _ he)
      rw [Outcome.trace_andThen hf, Outcome.state_andThen hf]
      exact ⟨sent.append later, hs''⟩

theorem sentShared_start (build : Build) (hs : h.SpeaksShared) :
    SentShared (h.start build).trace ∧ (h.start build).state.SpeaksShared := by
  rw [start_eq_runs]
  refine sentShared_runs build hs fun ev he => ?_
  have works : ev ∈ h.eventsOf build .runUntilIdle := he
  rcases (mem_eventsOf works).resolve_left (by simp) with rfl | ⟨tab, rfl⟩ <;> rfl

end Host

/-! ## Steps applied one after the other -/

namespace Replay

/-- What comes of some steps. -/
structure Applied where
  /-- The outputs of the steps that came to their ends. -/
  outputs : List (List Outgoing) := []
  /-- The effects of these steps. -/
  trace : List Effect := []
  host : Host Headless
  /-- How the step ended behind them, if one was refused or stopped. -/
  stop : Option Ending := none

/-- Applies some steps one after the other, up to the first that is refused or stops. -/
def applyAll (build : Build) : List Step → Host Headless → Applied
  | [], h => { host := h }
  | step :: rest, h =>
    match apply build step h with
    | .error e => { host := h, stop := some (.failed (.host e)) }
    | .ok o =>
      match o.fault with
      | some f => { host := h, stop := some (.crashed f) }
      | none =>
        let a := applyAll build rest o.state
        { a with outputs := o.outgoing :: a.outputs, trace := o.trace ++ a.trace }

/-- The session of some steps, and what comes behind them unless one was refused or stopped. -/
def Applied.session (a : Applied) (next : Host Headless → Session) : Session :=
  match a.stop with
  | some ending => { output := a.outputs.flatten, ending := ending }
  | none => { next a.host with output := a.outputs.flatten ++ (next a.host).output }

/-- The session of a whole script: its steps, and then what is left to do. -/
def whole (build : Build) (settings : Settings) (steps : List Step) : Session :=
  (applyAll build steps (start settings)).session fun h =>
    .after (finish build h) fun _ => { ending := .finished }

/-- The session of the steps before a line that cannot be read. -/
def upTo (build : Build) (settings : Settings) (steps : List Step) (e : ScriptError) : Session :=
  (applyAll build steps (start settings)).session fun _ => .refused (.ofScript e)

variable {build : Build} {h : Host Headless} {step : Step} {steps : List Step}

theorem speaksShared_start (settings : Settings) : (start settings).SpeaksShared :=
  ⟨Host.sound_new settings .zero {}, fun _ _ ht => (by cases ht)⟩

/-- All that a step sends goes into the shared stream. -/
theorem sentShared_apply {o : Outcome Effect (Host Headless)} (hs : h.SpeaksShared)
    (ho : apply build step h = .ok o) : SentShared o.trace ∧ o.state.SpeaksShared := by
  cases step with
  | createTab tab visible cost =>
    have same : o = h.step build (.create tab { visible := visible, cost := cost }) := by
      rw [Host.step, Host.createIfNew, show h.create? tab _ _ = .ok o from ho]
    rw [same]
    exact Host.sentShared_step build _ hs rfl
  | send e =>
    cases ho
    exact Host.sentShared_step build (.post e) hs rfl
  | addBlocker tab =>
    cases ho
    exact Host.sentShared_step build (.addBlocker tab) hs rfl
  | removeBlocker tab =>
    cases ho
    exact Host.sentShared_step build (.removeBlocker tab) hs rfl
  | destroy tab =>
    cases ho
    exact Host.sentShared_step build (.destroy tab) hs rfl
  | advance time =>
    cases ho
    unfold Host.advance
    split
    · exact ⟨sentShared_nil, hs⟩
    · next t _ => exact Host.sentShared_step build (.setClock t) hs rfl
  | run =>
    cases ho
    exact Host.sentShared_start build hs

/-- The outputs of some steps are all that they sent. -/
theorem sent_applyAll (build : Build) (steps : List Step) (hs : h.SpeaksShared) :
    (applyAll build steps h).outputs.flatten = messagesIn (applyAll build steps h).trace ∧
      (applyAll build steps h).host.SpeaksShared := by
  induction steps generalizing h with
  | nil => exact ⟨rfl, hs⟩
  | cons step rest ih =>
    rw [applyAll]
    split
    · exact ⟨rfl, hs⟩
    · next o ho =>
      obtain ⟨sent, hs'⟩ := sentShared_apply hs ho
      split
      · exact ⟨rfl, hs⟩
      · obtain ⟨later, hs''⟩ := ih hs'
        refine ⟨?_, hs''⟩
        rw [List.flatten_cons, later, messagesIn_append, Outcome.outgoing_of_sentShared sent]

end Replay

/-! ## Sessions -/

namespace Session

open Replay

variable {build : Build}

/-- Lines that can be parsed are replayed by their steps. -/
theorem runLines_append (build : Build) {number : Nat} {ls : List (List UInt8)} {steps : List Step}
    (hp : Script.parseLines number ls = .ok steps) (rest : List (List UInt8))
    (h : Host Headless) : runLines build number (ls ++ rest) h =
      (applyAll build steps h).session (runLines build (number + ls.length) rest) := by
  induction ls generalizing number steps h with
  | nil =>
    cases hp
    rfl
  | cons line ls ih =>
    rw [Script.parseLines] at hp
    cases hl : Script.parseBytes number line with
    | error e =>
      rw [hl] at hp
      cases hp
    | ok step =>
      simp only [hl] at hp
      cases hr : Script.parseLines (number + 1) ls with
      | error e =>
        rw [hr] at hp
        cases hp
      | ok steps' =>
        rw [hr] at hp
        cases hp
        have count : number + (line :: ls).length = number + 1 + ls.length := by
          rw [List.length_cons]
          omega
        rw [List.cons_append, runLines, hl, count]
        cases step with
        | none => exact ih hr h
        | some step =>
          simp only [Option.toList_some, List.singleton_append, applyAll]
          cases ha : apply build step h with
          | error e => rfl
          | ok o =>
            dsimp only [after]
            cases hf : o.fault with
            | some f => rfl
            | none =>
              simp only [ih hr o.state]
              unfold Applied.session
              dsimp only
              split <;> simp

/-- How the session of a script comes by its parse. -/
structure Replays (build : Build) (settings : Settings) (bytes : List UInt8) : Prop where
  /-- A script that can be parsed is replayed by its steps. -/
  parsed : ∀ steps, Script.parse bytes = .ok steps → run build settings bytes =
    whole build settings steps
  /-- One that cannot is replayed by the steps of the lines before the first that cannot be read,
  and the session fails at the same line, unless one of these steps ends it. -/
  blamed : ∀ e, Script.parse bytes = .error e → ∃ before line after steps,
    Text.lines bytes = before ++ line :: after ∧ Script.parseLines 1 before = .ok steps ∧
    Script.parseBytes (before.length + 1) line = .error e ∧
    (e = .unreadable ∨ ∃ d, e = .line (before.length + 1) d) ∧
    run build settings bytes = upTo build settings steps e
  /-- The outputs of some steps are the messages that they sent, whatever the way. -/
  sent : ∀ steps, (applyAll build steps (start settings)).outputs.flatten =
    messagesIn (applyAll build steps (start settings)).trace
  /-- So is the output of what is left behind them. -/
  sentLast : ∀ steps, (finish build (applyAll build steps (start settings)).host).outgoing =
    messagesIn (finish build (applyAll build steps (start settings)).host).trace

/-- A session replays a script, whatever its bytes, as the steps are applied that it is parsed
to; or those before the line at which it cannot be parsed. -/
theorem replays (build : Build) (settings : Settings) (bytes : List UInt8) :
    Replays build settings bytes := by
  refine ⟨fun steps hp => ?_, fun e he => ?_, fun steps => ?_, fun steps => ?_⟩
  · have all := runLines_append build hp [] (start settings)
    rw [List.append_nil] at all
    exact all
  · obtain ⟨before, line, after, split, readable, held, fails⟩ :=
      Script.parseLines_eq_error_iff.mp he
    obtain ⟨steps, good⟩ := Script.exists_steps_iff.mpr readable
    rw [Nat.add_comm] at fails
    have bad := (Script.parseBytes_eq_error_iff _ held).mpr fails
    refine ⟨before, line, after, steps, split, good, bad, fails.told, ?_⟩
    rw [run, split, runLines_append build good, Nat.add_comm]
    have refuses : runLines build (before.length + 1) (line :: after) =
        fun _ => refused (.ofScript e) := by
      funext h
      rw [runLines, bad]
    rw [refuses]
    rfl
  · exact (sent_applyAll build steps (speaksShared_start settings)).1
  · have hs := (sent_applyAll build steps (speaksShared_start settings)).2
    exact Outcome.outgoing_of_sentShared (Host.sentShared_start build hs).1

end Session

end TabHost
