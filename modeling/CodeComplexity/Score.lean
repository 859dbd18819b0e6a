import CodeComplexity.Distance
import CodeComplexity.Level
import CodeComplexity.Registry
import CodeComplexity.Rounding

/-!
# Tensor scores

The score of a vector `v` is `w · v + 0.1 · vᵀMv + ε · ‖v‖² · 0.01`, with weights `w`, the
interaction matrix `M` of the module type and the regularisation strength `ε`. Beside it, and
independent of weights and matrices, the plain sum of the components is held against the limit
that the profile of the module type sets.
-/

namespace CodeComplexity

/-- The regularisation strength of a score, unless another is asked for. -/
def defaultEpsilon : Float := 2.0

/-- The threshold of a score, unless another is asked for. -/
def defaultThreshold : Float := 10.0

/-- The score of one vector under one module type. The numbers are rounded for the report, all but
the strength, the vector and the limit. -/
structure TensorScore where
  linear : Float
  quadratic : Float
  raw : Float
  regularization : Float
  regularized : Float
  /-- The regularisation strength that was used. -/
  epsilon : Float
  moduleType : ModuleType
  vector : ComplexityVector
  rawSum : Float
  rawSumLimit : Float
  rawSumRatio : Float
  zone : Zone
  deriving DecidableEq

namespace TensorScore

/-- Regularised scores below this are safe. -/
def safeBelow : Float := 8.0

/-- Regularised scores from here on are violations. -/
def violationFrom : Float := 10.0

def isSafe (s : TensorScore) : Bool := decide (s.regularized < safeBelow)

/-- Whether the regularised score is neither safe nor a violation. -/
def needsReview (s : TensorScore) : Bool :=
  decide (safeBelow ≤ s.regularized) && decide (s.regularized < violationFrom)

def isViolation (s : TensorScore) : Bool := decide (violationFrom ≤ s.regularized)

def level (s : TensorScore) : Level := .ofScore s.regularized

end TensorScore

/-- What scores are computed with. -/
structure Scorer where
  registry : Registry
  /-- The regularisation strength asked for. -/
  epsilon : Float
  weights : ComplexityVector

namespace Scorer

/-- A scorer with the usual strength and weights. -/
def ofRegistry (r : Registry) : Scorer := ⟨r, defaultEpsilon, ComplexityVector.defaultWeights⟩

/-- The strength that is used: a zero asks for the default. -/
def effectiveEpsilon (s : Scorer) : Float := if s.epsilon == 0.0 then defaultEpsilon else s.epsilon

def linear (s : Scorer) (v : ComplexityVector) : Float := v.dot s.weights

/-- The part of the score that interactions contribute. -/
def quadratic (s : Scorer) (v : ComplexityVector) (t : ModuleType) : Float :=
  (s.registry.matrix t).interactionPart 0.1 v

/-- The part of the score that the length of the vector contributes. -/
def regularization (s : Scorer) (v : ComplexityVector) : Float :=
  s.effectiveEpsilon * (v.norm * v.norm) * 0.01

/-- The raw sum relative to its limit; zero if there is no positive limit. -/
def rawSumRatio (s : Scorer) (v : ComplexityVector) (t : ModuleType) : Float :=
  let limit := s.registry.rawSumLimit t
  if 0.0 < limit then v.total / limit else 0.0

/-- The score of a vector under a module type. The zone is that of the rounded ratio. -/
def score (s : Scorer) (v : ComplexityVector) (t : ModuleType) : TensorScore :=
  let linear := s.linear v
  let quadratic := s.quadratic v t
  let raw := linear + quadratic
  let regularization := s.regularization v
  let ratio := Rounding.toPlaces (s.rawSumRatio v t) 3
  { linear := Rounding.toPlaces linear 2
    quadratic := Rounding.toPlaces quadratic 2
    raw := Rounding.toPlaces raw 2
    regularization := Rounding.toPlaces regularization 2
    regularized := Rounding.toPlaces (raw + regularization) 2
    epsilon := s.effectiveEpsilon
    moduleType := t
    vector := v
    rawSum := Rounding.toPlaces v.total 2
    rawSumLimit := s.registry.rawSumLimit t
    rawSumRatio := ratio
    zone := .ofRatio ratio }

end Scorer

end CodeComplexity
