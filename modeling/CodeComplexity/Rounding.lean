/-!
# Rounding to decimal places

Reported numbers are rounded to a fixed number of decimal places, a half going away from zero.
A double is multiplied by a power of ten, rounded to a whole number and divided again; only
the middle step is exact.
-/

namespace CodeComplexity.Rounding

/-- Two to the power 52: every double from here on is a whole number. -/
def wholeFrom : Float := 4503599627370496.0

/-- The whole number nearest to `a`, a half going up, for `0 ≤ a < wholeFrom`: doubling is exact
there, and so is cutting off what stands after the point. -/
def nearestNat (a : Float) : Nat := ((2.0 * a).toUInt64.toNat + 1) / 2

/-- The nearest whole number, a half going away from zero. Zeros of both signs, infinities and
the value that is no number stay as they are. -/
def halfAway (x : Float) : Float :=
  if x.abs < wholeFrom then
    if x < 0.0 then -Float.ofNat (nearestNat x.abs)
    else if 0.0 < x then Float.ofNat (nearestNat x)
    else x
  else x

/-- `r · aⁿ` by repeated squaring. The order of the multiplications fixes how the result is
rounded. -/
def mulPow (r a : Float) (n : Nat) : Float :=
  let r := if n % 2 = 1 then r * a else r
  if n / 2 = 0 then r else mulPow r (a * a) (n / 2)
termination_by n
decreasing_by omega

/-- Ten to an integer power; a negative power is the reciprocal of the positive one. -/
def powerOfTen (d : Int) : Float :=
  let p := mulPow 1.0 10.0 d.natAbs
  if d < 0 then 1.0 / p else p

/-- Rounds to `d` decimal places, a half going away from zero. -/
def toPlaces (x : Float) (d : Int) : Float :=
  halfAway (x * powerOfTen d) / powerOfTen d

theorem powerOfTen_two : powerOfTen 2 = 100.0 := by
  simp only [powerOfTen, Int.natAbs]
  rw [mulPow, mulPow]
  decide

theorem powerOfTen_three : powerOfTen 3 = 1000.0 := by
  simp only [powerOfTen, Int.natAbs]
  rw [mulPow, mulPow]
  decide

end CodeComplexity.Rounding
