import TabHost.Protocol.Fault

/-!
# Outcomes

Every operation of a tab and of a host ends in an `Outcome`: the state it leaves, the
effects it had in their order, and the fault that stopped it, if one did. A fault stops
all that was to follow; the state and the effects up to it remain (`andThen`).

`andThen_assoc` and `ok_andThen` make sequences of operations associate as lists do, and
`state_andThen`, `trace_andThen` and `fault_andThen` read off a sequence whose first
part had no fault.
-/

namespace TabHost

/-- What an operation leaves behind. -/
structure Outcome (ε α : Type) where
  state : α
  trace : List ε := []
  fault : Option Fault := none

namespace Outcome

variable {ε δ α β : Type}

/-- Nothing but a new state. -/
def ok (s : α) : Outcome ε α := { state := s }

/-- A state and one effect. -/
def emit (e : ε) (s : α) : Outcome ε α := { state := s, trace := [e] }

/-- A fault. -/
def fail (f : Fault) (s : α) : Outcome ε α := { state := s, fault := some f }

/-- Goes on from the state that an operation left, unless it had a fault. -/
def andThen (o : Outcome ε α) (f : α → Outcome ε α) : Outcome ε α :=
  match o.fault with
  | some _ => o
  | none => { f o.state with trace := o.trace ++ (f o.state).trace }

/-- The outcome as seen from a larger or smaller state. -/
def map (f : α → β) (o : Outcome ε α) : Outcome ε β :=
  { state := f o.state, trace := o.trace, fault := o.fault }

/-- The outcome with its effects seen as effects of another kind. -/
def lift (f : ε → δ) (o : Outcome ε α) : Outcome δ α :=
  { state := o.state, trace := o.trace.map f, fault := o.fault }

/-- What a violation of the protocol leads to: a fault in a checked build, and nothing at
all in an unchecked one. -/
def violation (build : Build) (tab : TabId) (v : Violation) (s : α) : Outcome ε α :=
  match build with
  | .checked => fail (.violation tab v) s
  | .unchecked => ok s

/-! ## Sequences -/

@[simp] theorem state_ok (s : α) : (ok s : Outcome ε α).state = s := rfl

@[simp] theorem trace_ok (s : α) : (ok s : Outcome ε α).trace = [] := rfl

@[simp] theorem fault_ok (s : α) : (ok s : Outcome ε α).fault = none := rfl

@[simp] theorem ok_andThen (s : α) (f : α → Outcome ε α) : (ok s).andThen f = f s := rfl

theorem emit_andThen (e : ε) (s : α) (f : α → Outcome ε α) :
    (emit e s).andThen f = { f s with trace := e :: (f s).trace } := rfl

@[simp] theorem andThen_ok (o : Outcome ε α) : o.andThen ok = o := by
  cases o with
  | mk s t f => cases f <;> simp [andThen, ok]

theorem andThen_of_fault {o : Outcome ε α} {e : Fault} (h : o.fault = some e)
    (f : α → Outcome ε α) : o.andThen f = o := by
  simp [andThen, h]

/-- What follows matters only from the state that is left. -/
theorem andThen_congr {o : Outcome ε α} {f g : α → Outcome ε α} (h : f o.state = g o.state) :
    o.andThen f = o.andThen g := by
  simp [andThen, h]

theorem state_andThen {o : Outcome ε α} (h : o.fault = none) (f : α → Outcome ε α) :
    (o.andThen f).state = (f o.state).state := by
  simp [andThen, h]

theorem trace_andThen {o : Outcome ε α} (h : o.fault = none) (f : α → Outcome ε α) :
    (o.andThen f).trace = o.trace ++ (f o.state).trace := by
  simp [andThen, h]

theorem fault_andThen {o : Outcome ε α} (h : o.fault = none) (f : α → Outcome ε α) :
    (o.andThen f).fault = (f o.state).fault := by
  simp [andThen, h]

/-- A sequence comes to its end if both of its parts do. -/
theorem fault_andThen_eq_none_iff {o : Outcome ε α} {f : α → Outcome ε α} :
    (o.andThen f).fault = none ↔ o.fault = none ∧ (f o.state).fault = none := by
  cases h : o.fault with
  | some e => simp [andThen, h]
  | none => simp [andThen, h]

/-- What holds after the first part of a sequence, and is kept by the second, holds after
it, whether the second part is reached or not. -/
theorem andThen_preserves {P : α → Prop} {o : Outcome ε α} {f : α → Outcome ε α}
    (h : P o.state) (hf : ∀ s, P s → P (f s).state) : P (o.andThen f).state := by
  cases ho : o.fault with
  | some e =>
    rw [andThen_of_fault ho]
    exact h
  | none =>
    rw [state_andThen ho]
    exact hf _ h

theorem andThen_assoc (o : Outcome ε α) (f g : α → Outcome ε α) :
    (o.andThen f).andThen g = o.andThen fun s => (f s).andThen g := by
  cases o with
  | mk s t e =>
    cases e with
    | some e => rfl
    | none =>
      cases h : (f s).fault with
      | some e => simp [andThen, h]
      | none => simp [andThen, h]

@[simp] theorem state_map (f : α → β) (o : Outcome ε α) : (o.map f).state = f o.state := rfl

@[simp] theorem trace_map (f : α → β) (o : Outcome ε α) : (o.map f).trace = o.trace := rfl

@[simp] theorem fault_map (f : α → β) (o : Outcome ε α) : (o.map f).fault = o.fault := rfl

/-- A sequence as seen from another state, if its second part can be seen from there. -/
theorem map_andThen {g : α → β} {f : α → Outcome ε α} {f' : β → Outcome ε β}
    (h : ∀ s, (f s).map g = f' (g s)) (o : Outcome ε α) :
    (o.andThen f).map g = (o.map g).andThen f' := by
  cases o with
  | mk s t e =>
    cases e with
    | some e => rfl
    | none => simp only [andThen, map, ← h]

@[simp] theorem state_lift (f : ε → δ) (o : Outcome ε α) : (o.lift f).state = o.state := rfl

@[simp] theorem trace_lift (f : ε → δ) (o : Outcome ε α) :
    (o.lift f).trace = o.trace.map f := rfl

@[simp] theorem fault_lift (f : ε → δ) (o : Outcome ε α) : (o.lift f).fault = o.fault := rfl

/-- Whatever a violation leads to, it changes no state and has no effect. -/
@[simp] theorem state_violation (build : Build) (tab : TabId) (v : Violation) (s : α) :
    (violation build tab v s : Outcome ε α).state = s := by
  cases build <;> rfl

@[simp] theorem trace_violation (build : Build) (tab : TabId) (v : Violation) (s : α) :
    (violation build tab v s : Outcome ε α).trace = [] := by
  cases build <;> rfl

end Outcome

end TabHost
