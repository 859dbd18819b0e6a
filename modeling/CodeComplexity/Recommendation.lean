import CodeComplexity.DoubleBits
import CodeComplexity.Rounding
import CodeComplexity.Vector

/-!
# Recommendations

The dimensions that carry at least a tenth of the weighted total, the heaviest first, each with
the advice that belongs to it.
-/

namespace CodeComplexity

def Dimension.action : Dimension → String
  | control => "Extract complex conditionals into separate functions"
  | nesting => "Flatten nested structures using early returns or guard clauses"
  | state => "Reduce state mutations; consider immutable patterns"
  | async => "Simplify async flow; reduce callback nesting"
  | coupling => "Extract dependencies; use dependency injection"

structure Recommendation where
  dimension : Dimension
  /-- From one to five; more is more urgent. -/
  priority : Nat
  action : String
  /-- The reduction of the score that following the advice is taken to bring. -/
  expectedImpact : Float
  deriving DecidableEq

namespace Recommendation

/-- The share of the total from which on a dimension is recommended. -/
def minShare : Float := 0.1

/-- The part of a contribution that following the advice is taken to remove. -/
def impactFactor : Float := 0.3

/-- One more than the number of full tenths in a share, and never more than five. A share that
is no number counts as the largest. -/
def priorityOf (share : Float) : Nat :=
  let tenths := share * 10.0
  if tenths < 4.0 then tenths.toUInt8.toNat + 1 else 5

def contributions (v weights : ComplexityVector) : PerDimension Float := v.zipWith (· * ·) weights

/-- Puts a dimension in front of the first one that does not outrank it. -/
def place (rank : Dimension → Int) (d : Dimension) : List Dimension → List Dimension
  | [] => [d]
  | e :: rest => if rank e ≤ rank d then d :: e :: rest else e :: place rank d rest

/-- The dimensions by falling rank; those of equal rank stay in canonical order. -/
def ranking (rank : Dimension → Int) : List Dimension := Dimension.all.foldr (place rank) []

/-- The advice for a dimension that contributes to a total, if it contributes enough. -/
def advise? (c : PerDimension Float) (total : Float) (d : Dimension) : Option Recommendation :=
  let share := c.get d / total
  if share < minShare then none
  else
    some
      { dimension := d
        priority := priorityOf share
        action := d.action
        expectedImpact := Rounding.toPlaces (c.get d * impactFactor) 2 }

/-- The recommendations for a vector; none if the contributions add up to zero. They are ranked by
the bits of the contributions, which are handed over for those that are no numbers. -/
def ofVectorWith (nan : Dimension → UInt64) (v weights : ComplexityVector) : List Recommendation :=
  let c := contributions v weights
  let total := c.sum
  if total == 0.0 then []
  else
    (ranking fun d => DoubleBits.rank (DoubleBits.ofFloat (nan d) (c.get d))).filterMap
      (advise? c total)

/-- The recommendations for a vector, where all that is no number has its plain bits, so that it
ranks above everything else. A processor may set its sign; it then ranks below everything else. -/
def ofVector (v weights : ComplexityVector) : List Recommendation :=
  ofVectorWith (fun _ => DoubleBits.plainNaN) v weights

end Recommendation

end CodeComplexity
