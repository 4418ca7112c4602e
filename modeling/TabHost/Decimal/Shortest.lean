import TabHost.Decimal.Binary64

/-!
# The shortest decimal of a double

A double stands for every real number that rounds to it. Its shortest decimal is the
one with the fewest digits among these numbers, and among those with equally few digits
the one nearest to the double; an exact tie goes to the even last digit. `shortest`
finds it by trying one digit, two digits and so on: if any decimal with so many digits
rounds to the double, then one of the double's two neighbours among these decimals does.

`Layout` says how the digits are written out: where positional notation ends and how an
exponent is marked.
-/

namespace TabHost

namespace Decimal

-- Powers of natural numbers are those of the core library, whatever else is imported.
local instance (priority := 2000) powNat : Pow Nat Nat := instPowNat

/-! ## The interval of a double -/

/-- The real numbers around a positive double, with its decimal grid: the double is
`value / unit`, the numbers that round to it lie between `low / unit` and `high / unit`,
the ends included where `closed` says so. -/
structure Interval where
  low : Nat
  value : Nat
  high : Nat
  unit : Nat
  closed : Bool

/-- The interval of `m · 2^e` in quarters of the last place. Below a power of two the
doubles are twice as dense, so there the lower half of the interval is half as wide. -/
def Interval.ofFinite (m : Nat) (e : Int) : Interval :=
  let scale := 2 ^ (e - 2).toNat
  { low := (4 * m - if m = Binary64.leadingBit ∧ e ≠ -1074 then 1 else 2) * scale
    value := 4 * m * scale
    high := (4 * m + 2) * scale
    unit := 2 ^ (2 - e).toNat
    closed := m % 2 = 0 }

/-- Whether the number `n · grid / scale` lies in the interval. -/
def Interval.contains (i : Interval) (grid scale n : Nat) : Bool :=
  let x := n * grid * i.unit
  if i.closed then i.low * scale ≤ x && x ≤ i.high * scale
  else i.low * scale < x && x < i.high * scale

/-- The exponent `k` with `10^(k-1) ≤ value < 10^k`. -/
def Interval.magnitude (i : Interval) : Int :=
  if i.unit ≤ i.value then Binary64.digitCount (i.value / i.unit)
  else 1 - (Binary64.digitCount ((i.unit + i.value - 1) / i.value - 1) : Int)

/-! ## The search -/

/-- The decimal with digits up to the place `10^place` that stands for the double, if
there is one: of the two neighbours of the double the one that rounds to it, the nearer
one if both do, the even one if they are equally near. -/
def Interval.onGrid (i : Interval) (place : Int) : Option Nat :=
  let grid := 10 ^ place.toNat
  let scale := 10 ^ (-place).toNat
  let below := i.value * scale / (grid * i.unit)
  let above := below + 1
  match i.contains grid scale below, i.contains grid scale above with
  | false, false => none
  | true, false => some below
  | false, true => some above
  | true, true =>
    let gapBelow := i.value * scale - below * grid * i.unit
    let gapAbove := above * grid * i.unit - i.value * scale
    if gapBelow < gapAbove then some below
    else if gapAbove < gapBelow then some above
    else if below % 2 = 0 then some below else some above

/-- The first of so many grids, each ten times finer than the one before, that holds a
decimal for the double; with the place of its last digit. -/
def Interval.search (i : Interval) : Nat → Int → Option (Nat × Int)
  | 0, _ => none
  | tries + 1, place =>
    match i.onGrid place with
    | some n => some (n, place)
    | none => i.search tries (place - 1)

/-- The digits of a decimal without the zeros at its end, and the place after which they
stand: `(ds, p)` is `0.ds · 10^p`. -/
def significant (n : Nat) (place : Int) : List Char × Int :=
  let ds := Nat.toDigits 10 n
  ((ds.reverse.dropWhile (· = '0')).reverse, place + ds.length)

/-- The fewest digits that read back as `m · 2^e`, nearest to it. -/
def shortest (m : Nat) (e : Int) : List Char × Int :=
  let i := Interval.ofFinite m e
  match i.search 17 (i.magnitude - 1) with
  | some (n, place) => significant n place
  | none => (['0'], 1)

/-! ## Writing -/

/-- How a decimal is written out. -/
structure Layout where
  /-- Values at or above `10^this` are written with an exponent. -/
  positionalBelow : Int
  /-- Values below `10^this` are written with an exponent. -/
  positionalFrom : Int
  /-- The mark before an exponent that is not negative. -/
  positiveMark : String
  /-- The mark before the digits of a negative exponent. -/
  negativeMark : String

/-- A number of zeros. -/
def zeros (n : Nat) : List Char := List.replicate n '0'

/-- Digits with a point after the first `n` of them, and at least one digit on either
side of it. -/
def positional (ds : List Char) (point : Int) : List Char :=
  if point ≤ 0 then '0' :: '.' :: zeros (-point).toNat ++ ds
  else
    let whole := point.toNat
    let fraction := ds.drop whole
    ds.take whole ++ zeros (whole - ds.length) ++
      '.' :: if fraction.isEmpty then ['0'] else fraction

/-- Digits with a point after the first one, where more follow, and the exponent. -/
def Layout.scientific (l : Layout) (ds : List Char) (exponent : Int) : List Char :=
  let fraction := ds.drop 1
  ds.take 1 ++ (if fraction.isEmpty then [] else '.' :: fraction)
    ++ (if exponent < 0 then l.negativeMark else l.positiveMark).toList
    ++ (toString exponent.natAbs).toList

/-- The text of the magnitude `m · 2^e`. -/
def Layout.magnitude (l : Layout) (m : Nat) (e : Int) : List Char :=
  if m = 0 then ['0', '.', '0']
  else
    let (ds, point) := shortest m e
    if l.positionalFrom < point ∧ point ≤ l.positionalBelow then positional ds point
    else l.scientific ds (point - 1)

/-- The text of a double, if it is finite. -/
def Layout.write? (l : Layout) (x : Float) : Option (List Char) :=
  match Binary64.ofFloat x with
  | .finite negative m e => some (if negative then '-' :: l.magnitude m e else l.magnitude m e)
  | _ => none

end Decimal

end TabHost
