import CodeComplexity.Vector

/-!
# Profiles

A profile is the region of vectors that a module type admits: a closed interval for each
dimension. A component that is no number is inside no interval, and outside none either.
-/

namespace CodeComplexity

structure Interval where
  min : Float
  max : Float
  deriving DecidableEq

namespace Interval

/-- Whether `x` lies between the ends, which belong to the interval. -/
def contains (i : Interval) (x : Float) : Bool := decide (i.min ≤ x) && decide (x ≤ i.max)

/-- Whether `x` lies strictly beyond one of the ends. -/
def excludes (i : Interval) (x : Float) : Bool := decide (x < i.min) || decide (i.max < x)

def midpoint (i : Interval) : Float := (i.min + i.max) / 2.0

/-- Whether the ends are finite and in order. -/
def isProper (i : Interval) : Bool :=
  i.min.isFinite && i.max.isFinite && !decide (i.max < i.min)

/-- Whether both ends are equal as numbers. -/
def same (i j : Interval) : Bool := i.min == j.min && i.max == j.max

end Interval

abbrev Profile := PerDimension Interval

namespace Profile

/-- The profile with the given upper ends and every lower end at zero. -/
def upTo (v : ComplexityVector) : Profile := v.map fun x => ⟨0.0, x⟩

def centroid (p : Profile) : ComplexityVector := p.map Interval.midpoint

/-- Whether a vector lies inside in every dimension. -/
def contains (p : Profile) (v : ComplexityVector) : Bool :=
  Dimension.all.all fun d => (p.get d).contains (v.get d)

/-- The dimensions in which a vector breaks out, in canonical order. -/
def violations (p : Profile) (v : ComplexityVector) : List Dimension :=
  Dimension.all.filter fun d => (p.get d).excludes (v.get d)

/-- The sum of the upper ends, which limits the raw sum of a vector. -/
def upperSum (p : Profile) : Float := (p.map Interval.max).total

end Profile

end CodeComplexity
