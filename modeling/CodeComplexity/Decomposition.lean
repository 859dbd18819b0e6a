import CodeComplexity.Rounding
import CodeComplexity.Vector

/-!
# The weighted score in three parts

Control and nesting are algorithmic, state and coupling architectural; async bridges the two. A
unit is harmonic when the bridge carries a fixed share of the whole.
-/

namespace CodeComplexity

/-- The weighted score of a vector in three parts, rounded for the report. -/
structure Decomposition where
  /-- Control and nesting. -/
  algorithmic : Float
  /-- State and coupling. -/
  architectural : Float
  /-- Async. -/
  balanced : Float
  total : Float
  balanceRatio : Float
  isHarmonic : Bool
  deriving DecidableEq

namespace Decomposition

/-- The balanced share from which on a unit is harmonic. -/
def harmonicRatio : Float := 0.3

/-- Splits the weighted score of a vector. Harmony is judged by the share before rounding. -/
def ofVector (v weights : ComplexityVector) : Decomposition :=
  let algorithmic := v.control * weights.control + v.nesting * weights.nesting
  let architectural := v.state * weights.state + v.coupling * weights.coupling
  let balanced := v.async * weights.async
  let total := algorithmic + architectural + balanced
  let ratio := if 0.0 < total then balanced / total else 0.0
  { algorithmic := Rounding.toPlaces algorithmic 2
    architectural := Rounding.toPlaces architectural 2
    balanced := Rounding.toPlaces balanced 2
    total := Rounding.toPlaces total 2
    balanceRatio := Rounding.toPlaces ratio 3
    isHarmonic := decide (harmonicRatio ≤ ratio) }

end Decomposition

end CodeComplexity
