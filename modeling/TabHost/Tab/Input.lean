import TabHost.Tab.Basic

/-!
# Input of a tab

Pointer moves may be kept back, but nothing overtakes them: before an event of any other
kind is dispatched, all that waits is dispatched first, what is queued before what is
kept back.
-/

namespace TabHost

namespace Seat

variable {σ : Type} [Content σ]

/-! ## Pointers -/

/-- Changes the pointer input that waits. -/
def onMoves (f : MoveBatch → MoveBatch) (s : Seat σ) : Seat σ :=
  { s with tab := { s.tab with moves := s.tab.moves.map f } }

/-- Dispatches the queue of pointer events. -/
def drain : Operation σ := perform Stage.drain

/-- A pointer event that is not kept back goes behind all that waits. -/
def pointerEvent (e : PointerEvent) : Operation σ := fun s =>
  match s.tab.moves with
  | none => .ok s
  | some _ => drain (s.onMoves fun b => b.flush.enqueue e)

/-- A pointer move. -/
def pointerMove (e : PointerMove) : Operation σ := fun s =>
  if s.tab.settings.batchMoves then
    match s.tab.moves with
    | none => .ok s
    | some b =>
      let s := s.onMoves (·.add PointerMove.sameButtons e)
      if b.displaces PointerMove.sameButtons e then drain s else .ok s
  else pointerEvent (.move e) s

/-- Dispatches all pointer input that waits. -/
def flushInput : Operation σ := fun s =>
  if s.tab.state.isLive then
    match s.tab.moves with
    | none => .ok s
    | some b => if b.isIdle then .ok s else drain (s.onMoves MoveBatch.flush)
  else .ok s

/-! ## The wheel -/

/-- Lets content handle wheel events. -/
def performWheel (f : WheelBatch × Stage σ → Outcome Call (WheelBatch × Stage σ)) :
    Operation σ := fun s =>
  ((f (s.tab.wheel, s.stage)).map fun r =>
    let s := s.leaveStage r.2
    { s with tab := { s.tab with wheel := r.1 } }).lift (.call s.tab.id)

/-- A wheel event, given whether another one waits behind it. -/
def wheelEvent (e : WheelEvent) (nextIsWheel : Bool) : Operation σ := fun s =>
  (flushInput s).andThen <| performWheel <|
    if s.tab.settings.batchWheel then WheelBatch.handle e nextIsWheel
    else fun r => (WheelBatch.dispatchPending r).andThen (WheelBatch.dispatch e)

/-! ## Keys -/

/-- Sets what is remembered of key events. -/
def setKeys (f : KeyFilter) (s : Seat σ) : Seat σ := { s with tab := { s.tab with keys := f } }

/-- Answers a key event, if an answer is asked for. -/
def replyKey (e : KeyEvent) (status : EventStatus) : Operation σ := fun s =>
  if e.wantsReply then send (.keyHandled e (status = .consumeNoDefault)) s else .ok s

/-- Lets content handle a key event. -/
def dispatchKey (e : KeyEvent) : Operation σ := fun s =>
  let status := s.stage.keyStatus e
  (perform (Stage.key e) s).andThen fun s =>
    replyKey e status (s.setKeys (s.tab.keys.record e status s.shared.clock))

/-- Handles a key event unless it is a keypress of a consumed keydown. -/
def unlessSuppressed (e : KeyEvent) : Operation σ := fun s =>
  if s.tab.keys.suppresses e then .ok s else dispatchKey e s

/-- A key event. -/
def keyEvent (e : KeyEvent) : Operation σ := fun s =>
  (flushInput s).andThen fun s =>
    if s.tab.settings.skipRepeats then
      let skipped := s.tab.keys.skips e
      let s := s.setKeys (s.tab.keys.afterSkip e)
      if skipped then .ok s else unlessSuppressed e s
    else unlessSuppressed e s

end Seat

end TabHost
