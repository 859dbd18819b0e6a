import CodeComplexity.DoubleBits

/-!
# The shortest decimal of a double

A finite double stands for all the reals that round to it. Its shortest decimal is the one with
the fewest digits in that interval and, of those, the one nearest to the double. Everything is
computed in exact natural numbers: the unit is a quarter of the distance to the next double.
-/

namespace CodeComplexity.Decimal

/-- Which of two equally near decimals is taken. -/
inductive Tie
  | toEven
  | up
  deriving DecidableEq, Repr

/-- A positive decimal: a point, then the digits, times ten to the power `point`. -/
structure Digits where
  digits : List Char
  point : Int
  deriving DecidableEq, Repr

/-- The magnitude `mantissa · 2 ^ exponent` of a finite double. -/
structure Magnitude where
  mantissa : Nat
  exponent : Int
  /-- Whether the next smaller double is only half as far away as the next larger one. -/
  narrowBelow : Bool
  deriving DecidableEq, Repr

namespace Magnitude

/-- The magnitude of a finite double. The numbers next to zero have no leading bit. -/
def ofFloat (x : Float) : Magnitude :=
  let biased := DoubleBits.exponent x
  let fraction := DoubleBits.fraction x
  if biased = 0 then ⟨fraction, -1074, false⟩
  else
    ⟨DoubleBits.fractionSize + fraction, (biased : Int) - 1075, fraction == 0 && biased != 1⟩

def digitCount (n : Nat) : Nat := (Nat.toDigits 10 n).length

/-- The power of ten of the leading digit. -/
def leadingPower (m : Magnitude) : Int :=
  let num := m.mantissa * Nat.pow 2 m.exponent.toNat
  let den := Nat.pow 2 (-m.exponent).toNat
  if den ≤ num then digitCount (num / den) - 1 else -digitCount ((den - 1) / num)

/-- A decimal grid beside the binary one: `step` such pieces are one step of the grid, and
`quarter` of them a quarter of the distance to the next double. -/
structure Grid where
  step : Nat
  quarter : Nat

/-- The grid of the multiples of ten to the power `e`. -/
def grid (m : Magnitude) (e : Int) : Grid :=
  let q := m.exponent - 2
  ⟨Nat.pow 10 e.toNat * Nat.pow 2 (-q).toNat, Nat.pow 2 q.toNat * Nat.pow 10 (-e).toNat⟩

/-- Whether the `c`-th point of a grid rounds to the double: a point on the border does when the
mantissa is even. -/
def holds (m : Magnitude) (g : Grid) (c : Nat) : Bool :=
  let low := (4 * m.mantissa - if m.narrowBelow then 1 else 2) * g.quarter
  let high := (4 * m.mantissa + 2) * g.quarter
  let p := c * g.step
  if m.mantissa % 2 = 0 then low ≤ p && p ≤ high else low < p && p < high

/-- Of the two points of a grid beside the double, the nearer one that rounds to it. -/
def pick? (m : Magnitude) (tie : Tie) (g : Grid) : Option Nat :=
  let value := 4 * m.mantissa * g.quarter
  let below := value / g.step
  let rest := value % g.step
  match m.holds g below, m.holds g (below + 1) with
  | true, true =>
    if 2 * rest < g.step then some below
    else if g.step < 2 * rest then some (below + 1)
    else match tie with
      | .toEven => some (if below % 2 = 0 then below else below + 1)
      | .up => some (below + 1)
  | true, false => some below
  | false, true => some (below + 1)
  | false, false => none

/-- Seventeen digits always suffice, so the search does not go further. -/
def maxDigits : Nat := 17

/-- The shortest decimal of a positive magnitude. -/
def shortest (m : Magnitude) (tie : Tie) : Digits :=
  let top := m.leadingPower
  let found := (List.range maxDigits).findSome? fun (n : Nat) =>
    (m.pick? tie (m.grid (top - n))).map fun c => (c, top - (n : Int))
  let (c, e) := found.getD (0, top)
  let digits := Nat.toDigits 10 c
  ⟨(digits.reverse.dropWhile (· == '0')).reverse, digits.length + e⟩

end Magnitude

end CodeComplexity.Decimal
