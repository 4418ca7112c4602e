/-!
# Hexadecimal digits
-/

namespace TabHost

namespace Text

/-- The value of a hexadecimal digit. -/
def hexValue? (c : Char) : Option Nat :=
  if c.isDigit then some (c.toNat - '0'.toNat)
  else if 'a' ≤ c ∧ c ≤ 'f' then some (c.toNat - 'a'.toNat + 10)
  else if 'A' ≤ c ∧ c ≤ 'F' then some (c.toNat - 'A'.toNat + 10)
  else none

/-- The number that hexadecimal digits write. -/
def natOfHex? (cs : List Char) : Option Nat :=
  (cs.mapM hexValue?).map fun values => values.foldl (fun n v => 16 * n + v) 0

end Text

end TabHost
