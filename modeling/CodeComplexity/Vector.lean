import CodeComplexity.PerDimension

/-!
# Complexity vectors

A unit of code is handed over as five doubles, one for each dimension. Components are expected
not to be negative; nothing here depends on that.
-/

namespace CodeComplexity

/-- The measured complexity of a unit of code. -/
abbrev ComplexityVector := PerDimension Float

namespace ComplexityVector

def zero : ComplexityVector := PerDimension.const 0.0

/-- Whether every component is a zero, of either sign. -/
def isZero (v : ComplexityVector) : Bool := Dimension.all.all fun d => v.get d == 0.0

/-- The weight of each dimension in the linear score, unless configured otherwise. -/
def defaultWeights : ComplexityVector := ⟨1.0, 1.5, 2.0, 2.5, 3.0⟩

end ComplexityVector

end CodeComplexity
