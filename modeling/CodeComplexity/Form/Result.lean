import CodeComplexity.BestFit
import CodeComplexity.Decomposition
import CodeComplexity.Deviation
import CodeComplexity.Form.Basic
import CodeComplexity.History
import CodeComplexity.Recommendation

/-!
# Exchanged forms: results

The forms of everything an analysis returns, and of score histories. They are read from one format
only, which refuses surplus elements.
-/

namespace CodeComplexity

open Document

def DeviationStatus.toDocument (s : DeviationStatus) : Document := text s.name

def DeviationStatus.ofDocument? : Document → Option DeviationStatus := named? ofName?

def ConvergenceStatus.toDocument (s : ConvergenceStatus) : Document := text s.name

def ConvergenceStatus.ofDocument? : Document → Option ConvergenceStatus := named? ofName?

namespace TensorScore

def toDocument (s : TensorScore) : Document :=
  table
    [("linear", ofFloat s.linear), ("quadratic", ofFloat s.quadratic), ("raw", ofFloat s.raw),
      ("regularization", ofFloat s.regularization), ("regularized", ofFloat s.regularized),
      ("epsilon", ofFloat s.epsilon), ("module_type", s.moduleType.toDocument),
      ("vector", s.vector.toDocument), ("raw_sum", ofFloat s.rawSum),
      ("raw_sum_threshold", ofFloat s.rawSumLimit), ("raw_sum_ratio", ofFloat s.rawSumRatio),
      ("zone", s.zone.toDocument)]

def fieldNames : List String :=
  ["linear", "quadratic", "raw", "regularization", "regularized", "epsilon", "module_type",
    "vector", "raw_sum", "raw_sum_threshold", "raw_sum_ratio", "zone"]

def ofDocument? (d : Document) : Option TensorScore := do
  let f ← d.fields? .refused fieldNames
  return {
    linear := ← f.required "linear" toFloat?
    quadratic := ← f.required "quadratic" toFloat?
    raw := ← f.required "raw" toFloat?
    regularization := ← f.required "regularization" toFloat?
    regularized := ← f.required "regularized" toFloat?
    epsilon := ← f.required "epsilon" toFloat?
    moduleType := ← f.required "module_type" ModuleType.ofDocument?
    vector := ← f.required "vector" (ComplexityVector.ofDocument? .refused)
    rawSum := ← f.required "raw_sum" toFloat?
    rawSumLimit := ← f.required "raw_sum_threshold" toFloat?
    rawSumRatio := ← f.required "raw_sum_ratio" toFloat?
    zone := ← f.required "zone" Zone.ofDocument? }

end TensorScore

namespace BestFit

def toDocument (b : BestFit) : Document :=
  table [("module_type", b.moduleType.toDocument), ("distance", ofFloat b.distance),
    ("confidence", ofFloat b.confidence)]

def ofDocument? (d : Document) : Option BestFit := do
  let f ← d.fields? .refused ["module_type", "distance", "confidence"]
  return {
    moduleType := ← f.required "module_type" ModuleType.ofDocument?
    distance := ← f.required "distance" toFloat?
    confidence := ← f.required "confidence" toFloat? }

end BestFit

namespace Deviation

def toDocument (d : Deviation) : Document :=
  table
    [("euclidean_distance", ofFloat d.euclideanDistance),
      ("mahalanobis_distance", ofFloat d.interactionDistance),
      ("max_dimension_deviation", ofFloat d.maxDimensionDeviation),
      ("normalized_deviation", ofFloat d.normalizedDeviation),
      ("is_canonical", bool d.isCanonical), ("is_orphan", bool d.isOrphan),
      ("module_type", d.moduleType.toDocument), ("vector", d.vector.toDocument),
      ("violation_dimensions", list (d.violations.map Dimension.toDocument)),
      ("status", d.status.toDocument)]

def fieldNames : List String :=
  ["euclidean_distance", "mahalanobis_distance", "max_dimension_deviation",
    "normalized_deviation", "is_canonical", "is_orphan", "module_type", "vector",
    "violation_dimensions", "status"]

def ofDocument? (d : Document) : Option Deviation := do
  let f ← d.fields? .refused fieldNames
  return {
    euclideanDistance := ← f.required "euclidean_distance" toFloat?
    interactionDistance := ← f.required "mahalanobis_distance" toFloat?
    maxDimensionDeviation := ← f.required "max_dimension_deviation" toFloat?
    normalizedDeviation := ← f.required "normalized_deviation" toFloat?
    isCanonical := ← f.required "is_canonical" toBool?
    isOrphan := ← f.required "is_orphan" toBool?
    moduleType := ← f.required "module_type" ModuleType.ofDocument?
    vector := ← f.required "vector" (ComplexityVector.ofDocument? .refused)
    violations := ← f.required "violation_dimensions" (toList? Dimension.ofDocument?)
    status := ← f.required "status" DeviationStatus.ofDocument? }

end Deviation

namespace Decomposition

def toDocument (d : Decomposition) : Document :=
  table
    [("algorithmic", ofFloat d.algorithmic), ("architectural", ofFloat d.architectural),
      ("balanced", ofFloat d.balanced), ("total", ofFloat d.total),
      ("balance_ratio", ofFloat d.balanceRatio), ("is_harmonic", bool d.isHarmonic)]

def fieldNames : List String :=
  ["algorithmic", "architectural", "balanced", "total", "balance_ratio", "is_harmonic"]

def ofDocument? (d : Document) : Option Decomposition := do
  let f ← d.fields? .refused fieldNames
  return {
    algorithmic := ← f.required "algorithmic" toFloat?
    architectural := ← f.required "architectural" toFloat?
    balanced := ← f.required "balanced" toFloat?
    total := ← f.required "total" toFloat?
    balanceRatio := ← f.required "balance_ratio" toFloat?
    isHarmonic := ← f.required "is_harmonic" toBool? }

end Decomposition

namespace Recommendation

def toDocument (r : Recommendation) : Document :=
  table [("dimension", r.dimension.toDocument), ("priority", ofNat r.priority),
    ("action", text r.action), ("expected_impact", ofFloat r.expectedImpact)]

/-- Priorities are read up to this bound, which they stay below. -/
def priorityBound : Nat := 256

def ofDocument? (d : Document) : Option Recommendation := do
  let f ← d.fields? .refused ["dimension", "priority", "action", "expected_impact"]
  return {
    dimension := ← f.required "dimension" Dimension.ofDocument?
    priority := ← f.required "priority" (toNatBelow? priorityBound)
    action := ← f.required "action" toText?
    expectedImpact := ← f.required "expected_impact" toFloat? }

end Recommendation

namespace Measurement

def toDocument (m : Measurement) : Document :=
  table [("vector", m.vector.toDocument), ("score", ofFloat m.score)]

def ofDocument? (d : Document) : Option Measurement := do
  let f ← d.fields? .refused ["vector", "score"]
  return {
    vector := ← f.required "vector" (ComplexityVector.ofDocument? .refused)
    score := ← f.required "score" toFloat? }

end Measurement

namespace Convergence

def toDocument (c : Convergence) : Document :=
  table
    [("score", ofFloat c.score), ("threshold", ofFloat c.threshold),
      ("epsilon", ofFloat c.epsilon), ("convergence_score", ofFloat c.convergenceScore),
      ("status", c.status.toDocument), ("distance_to_target", ofFloat c.distanceToTarget),
      ("distance_to_threshold", ofFloat c.distanceToThreshold),
      ("lipschitz_estimate", ofFloat c.slope)]

def fieldNames : List String :=
  ["score", "threshold", "epsilon", "convergence_score", "status", "distance_to_target",
    "distance_to_threshold", "lipschitz_estimate"]

def ofDocument? (d : Document) : Option Convergence := do
  let f ← d.fields? .refused fieldNames
  return {
    score := ← f.required "score" toFloat?
    threshold := ← f.required "threshold" toFloat?
    epsilon := ← f.required "epsilon" toFloat?
    convergenceScore := ← f.required "convergence_score" toFloat?
    status := ← f.required "status" ConvergenceStatus.ofDocument?
    distanceToTarget := ← f.required "distance_to_target" toFloat?
    distanceToThreshold := ← f.required "distance_to_threshold" toFloat?
    slope := ← f.required "lipschitz_estimate" toFloat? }

end Convergence

namespace History

def toDocument (h : History) : Document :=
  table [("scores", list (h.scores.map ofFloat)), ("limit", ofNat h.limit)]

/-- Reads the record of a history. The scores are not held against the limit. -/
def ofDocument? (d : Document) : Option History := do
  let f ← d.fields? .refused ["scores", "limit"]
  return {
    scores := ← f.required "scores" (toList? toFloat?)
    limit := ← f.required "limit" (toNatBelow? unsignedBound) }

end History

end CodeComplexity
