import CodeComplexity.Distance
import CodeComplexity.Registry
import CodeComplexity.Rounding

/-!
# The best fitting module type

The known module type whose profile's middle lies nearest to a vector, each measured with the
matrix of its own type.
-/

namespace CodeComplexity

/-- The known module type nearest to a vector. -/
structure BestFit where
  moduleType : ModuleType
  /-- The distance to the middle of its profile, rounded. -/
  distance : Float
  /-- One over one more than the rounded distance, rounded. -/
  confidence : Float
  deriving DecidableEq

namespace BestFit

/-- The distance of a vector from the middle of a module type's profile. -/
def distanceTo (r : Registry) (v : ComplexityVector) (t : ModuleType) : Float :=
  v.interactionDistance (r.profile t).centroid (r.matrix t)

/-- The first known module type that no later one is nearer than. -/
def nearest (distance : ModuleType → Float) : ModuleType :=
  ModuleType.allKnown.foldl (fun best t => if distance t < distance best then t else best) .api

/-- The best fit of a vector. Distances are compared before rounding. -/
def ofVector (r : Registry) (v : ComplexityVector) : BestFit :=
  let t := nearest (distanceTo r v)
  let distance := Rounding.toPlaces (distanceTo r v t) 3
  { moduleType := t
    distance := distance
    confidence := Rounding.toPlaces (1.0 / (1.0 + distance)) 3 }

end BestFit

end CodeComplexity
