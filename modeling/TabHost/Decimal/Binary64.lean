/-!
# Exact values of doubles

A finite double is a sign and a product `significand · 2^exponent`; here it is taken
apart into these, so that rounding and printing are arithmetic on natural numbers.
`nearestNat` is the integer nearest to such a product, halves going up, and
`ofDecimal?` the double nearest to a decimal, if it is not beyond the largest one.
-/

namespace TabHost

-- Powers of natural numbers are those of the core library, whatever else is imported.
local instance (priority := 2000) Binary64.powNat : Pow Nat Nat := instPowNat

/-- A double by its exact value. -/
inductive Binary64 where
  | nan
  | infinite (negative : Bool)
  | finite (negative : Bool) (significand : Nat) (exponent : Int)
  deriving DecidableEq

namespace Binary64

/-- The leading bit of a significand, `2^52`, which the bits of a double leave out. -/
def leadingBit : Nat := 0x10000000000000

/-- The value that the bits of a double stand for. -/
def ofBits (bits : UInt64) : Binary64 :=
  let n := bits.toNat
  let negative := decide (2048 * leadingBit ≤ n)
  let biased : Nat := n / leadingBit % 2048
  let fraction : Nat := n % leadingBit
  if biased = 2047 then
    if fraction = 0 then .infinite negative else .nan
  else if biased = 0 then .finite negative fraction (-1074)
  else .finite negative (leadingBit + fraction) ((biased : Int) - 1075)

/-- The value of a double. -/
def ofFloat (x : Float) : Binary64 := ofBits x.toBits

/-- The natural number nearest to `m · 2^e`; of two equally near ones, the larger. -/
def nearestNat (m : Nat) (e : Int) : Nat :=
  match e with
  | .ofNat k => m * 2 ^ k
  | .negSucc k => (m + 2 ^ k) / 2 ^ (k + 1)

/-- How many decimal digits a number has; zero has none. -/
def digitCount (n : Nat) : Nat := if n = 0 then 0 else (Nat.toDigits 10 n).length

/-- The double nearest to `digits · 10^exponent`; none where that is beyond the largest
double. Decimals far outside the range of doubles are settled by their magnitude. -/
def ofDecimal? (negative : Bool) (digits : Nat) (exponent : Int) : Option Float :=
  let magnitude : Option Float :=
    if digits = 0 then some 0
    else if exponent + digitCount digits > 310 then none
    else if exponent + digitCount digits < -330 then some 0
    else
      let x := Float.ofScientific digits (exponent < 0) exponent.natAbs
      if x.isFinite then some x else none
  magnitude.map fun x => if negative then -x else x

end Binary64

end TabHost
