import TabHost.Json.Decode
import TabHost.Time

/-!
# Durations on the wire

A duration travels as a number of milliseconds, a double. Reading rounds to the nearest
nanosecond, halves going up, and stops at `2^64 - 1` nanoseconds; writing adds up seconds
and the fraction of a second and multiplies by a thousand, in doubles.
-/

namespace TabHost

namespace Duration

/-- The longest duration that can be read, in nanoseconds. -/
def wireLimit : Nat := UInt64.size - 1

/-- The duration of so many milliseconds: none if the number is negative or not finite. -/
def ofMillis? (x : Float) : Option Duration :=
  if !x.isFinite || x < 0 then none
  else
    match Binary64.ofFloat (x * 1000000) with
    | .finite _ m e => some (ofNanos (UInt64.ofNat (min (Binary64.nearestNat m e) wireLimit)))
    | _ => some (ofNanos (UInt64.ofNat wireLimit))

/-- The milliseconds of a duration. -/
def toMillis (d : Duration) : Float :=
  ((UInt64.ofNat d.seconds).toFloat + (UInt64.ofNat d.subsecNanos).toFloat / 1000000000) * 1000

/-- The refusal of a number that is no duration. -/
def refusal : String := "timestamp must be a non-negative number"

def decode : Decoder Duration := fun place v =>
  match Decode.float place v with
  | .error e => .error e
  | .ok x =>
    match ofMillis? x with
    | some d => .ok d
    | none => .error (.refused refusal)

def encode (d : Duration) : Json := .float d.toMillis

/-- What is read from the wire is at most `2^64 - 1` nanoseconds. -/
theorem nanos_ofMillis?_le {x : Float} {d : Duration} (h : ofMillis? x = some d) :
    d.nanos ≤ wireLimit := by
  have bound : ∀ n : UInt64, (ofNanos n).nanos ≤ wireLimit := fun n => by
    have := n.toNat_lt
    show n.toNat ≤ wireLimit
    simp only [wireLimit, UInt64.size]
    omega
  unfold ofMillis? at h
  split at h
  · cases h
  · split at h <;> exact Option.some.inj h ▸ bound _

end Duration

end TabHost
