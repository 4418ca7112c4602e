/-!
# Durations

A `Duration` is a span of time, or an instant on the timeline that the parent and the
tabs share, in whole nanoseconds. The longest one is `2^64 - 1` seconds and
`999999999` nanoseconds; a sum beyond it has no value (`add?`), a difference below zero
is zero (`sub`).
-/

namespace TabHost

/-- The nanoseconds of a second. -/
def Duration.nanosPerSecond : Nat := 1000000000

/-- The nanoseconds of the longest duration. -/
def Duration.limit : Nat := UInt64.size * Duration.nanosPerSecond - 1

/-- A span of time in whole nanoseconds. -/
structure Duration where
  nanos : Nat
  within : nanos ≤ Duration.limit
  deriving DecidableEq

namespace Duration

@[ext] theorem ext_nanos {a b : Duration} (h : a.nanos = b.nanos) : a = b := by
  cases a
  cases b
  cases h
  rfl

instance : LT Duration := ⟨fun a b => a.nanos < b.nanos⟩

instance : LE Duration := ⟨fun a b => a.nanos ≤ b.nanos⟩

instance (a b : Duration) : Decidable (a < b) := inferInstanceAs (Decidable (a.nanos < b.nanos))

instance (a b : Duration) : Decidable (a ≤ b) := inferInstanceAs (Decidable (a.nanos ≤ b.nanos))

/-- A span of so many nanoseconds, if there is one that long. -/
def ofNanos? (n : Nat) : Option Duration :=
  if h : n ≤ limit then some ⟨n, h⟩ else none

/-- A span of at most `2^64 - 1` nanoseconds. -/
def ofNanos (n : UInt64) : Duration :=
  ⟨n.toNat, by
    have := n.toNat_lt
    simp only [limit, nanosPerSecond, UInt64.size]
    omega⟩

def zero : Duration := ⟨0, Nat.zero_le _⟩

instance : Inhabited Duration := ⟨zero⟩

/-- The sum, unless it is longer than the longest duration. -/
def add? (a b : Duration) : Option Duration := ofNanos? (a.nanos + b.nanos)

/-- The difference, or zero where it would be negative. -/
def sub (a b : Duration) : Duration :=
  ⟨a.nanos - b.nanos, Nat.le_trans (Nat.sub_le _ _) a.within⟩

/-- The whole seconds of a duration. -/
def seconds (d : Duration) : Nat := d.nanos / nanosPerSecond

/-- The nanoseconds beyond the whole seconds. -/
def subsecNanos (d : Duration) : Nat := d.nanos % nanosPerSecond

theorem add?_eq_some_iff {a b c : Duration} : a.add? b = some c ↔ a.nanos + b.nanos = c.nanos := by
  unfold add? ofNanos?
  constructor
  · intro h
    split at h
    · cases h
      rfl
    · cases h
  · intro h
    have : a.nanos + b.nanos ≤ limit := h ▸ c.within
    simp only [this, dite_true, Option.some.injEq]
    exact ext_nanos h

@[simp] theorem nanos_sub (a b : Duration) : (a.sub b).nanos = a.nanos - b.nanos := rfl

end Duration

end TabHost
