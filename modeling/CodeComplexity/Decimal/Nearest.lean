import CodeComplexity.Decimal.Shortest

/-!
# Reading a decimal

The double nearest to a decimal. Decimals far outside the range of doubles are settled by the
power of their leading digit, before any power of ten is formed.
-/

namespace CodeComplexity.Decimal

def infinity : Float := 1.0 / 0.0

/-- The double nearest to `m · 10 ^ e`: infinite if that is too large, and zero if it is too
small. -/
def nearest (m : Nat) (e : Int) : Float :=
  let top := e + Magnitude.digitCount m
  if m = 0 ∨ top < -330 then 0.0
  else if 310 < top then infinity
  else Float.ofScientific m (e < 0) e.natAbs

def natOfDigits (cs : List Char) : Nat :=
  cs.foldl (fun n c => 10 * n + (c.toNat - '0'.toNat)) 0

end CodeComplexity.Decimal
