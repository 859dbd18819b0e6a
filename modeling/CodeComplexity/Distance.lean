import CodeComplexity.InteractionMatrix
import CodeComplexity.Vector

/-!
# Distances between vectors

The plain distance and the one in which a matrix makes moving along strongly coupled dimensions
cost more. All sums run in the fixed order of `PerDimension.sum` and
`InteractionMatrix.quadraticForm`.
-/

namespace CodeComplexity.ComplexityVector

def norm (v : ComplexityVector) : Float := v.normSq.sqrt

def euclideanDistance (v w : ComplexityVector) : Float := norm (v - w)

def interactionDistance (v w : ComplexityVector) (m : InteractionMatrix Float) : Float :=
  (m.squaredDistance Float.abs v w).sqrt

end CodeComplexity.ComplexityVector
