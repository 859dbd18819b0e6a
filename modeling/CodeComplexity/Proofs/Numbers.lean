import CodeComplexity.Engine
import CodeComplexity.History

/-!
The numbers of a record.

What is said of every number of a record, be it that it is finite or only that it is a number, is
said of one list: the doubles it holds, those of its parts included.
-/

namespace CodeComplexity

def Profile.numbers (p : Profile) : List Float := p.toList.flatMap fun i => [i.min, i.max]

def TensorScore.numbers (s : TensorScore) : List Float :=
  [s.linear, s.quadratic, s.raw, s.regularization, s.regularized, s.epsilon, s.rawSum,
    s.rawSumLimit, s.rawSumRatio] ++ s.vector.toList

def BestFit.numbers (b : BestFit) : List Float := [b.distance, b.confidence]

def Deviation.numbers (d : Deviation) : List Float :=
  [d.euclideanDistance, d.interactionDistance, d.maxDimensionDeviation, d.normalizedDeviation] ++
    d.vector.toList

def Decomposition.numbers (d : Decomposition) : List Float :=
  [d.algorithmic, d.architectural, d.balanced, d.total, d.balanceRatio]

/-- The priority is a whole number, which has a form whatever it is. -/
def Recommendation.numbers (r : Recommendation) : List Float := [r.expectedImpact]

def Measurement.numbers (m : Measurement) : List Float := m.score :: m.vector.toList

def Convergence.numbers (c : Convergence) : List Float :=
  [c.score, c.threshold, c.epsilon, c.convergenceScore, c.distanceToTarget, c.distanceToThreshold,
    c.slope]

def CodeUnit.numbers (u : CodeUnit) : List Float :=
  u.vector.toList ++ u.previous.toList.flatMap Measurement.numbers

/-- The numbers of the score, the best fit, the deviation and the decomposition in a report. -/
def UnitReport.numbers (r : UnitReport) : List Float :=
  r.tensor.numbers ++ r.bestFit.numbers ++ r.deviation.numbers ++ r.decomposition.numbers

def Interval.numbers (i : Interval) : List Float := [i.min, i.max]

def InteractionMatrix.numbers (m : InteractionMatrix Float) : List Float :=
  m.toList.flatMap PerDimension.toList

def Parameters.numbers (p : Parameters) : List Float :=
  p.epsilon :: p.threshold :: p.weights.toList

def ProfileOverride.numbers (o : ProfileOverride) : List Float :=
  o.toList.flatMap fun i => i.toList.flatMap Interval.numbers

def Config.numbers (c : Config) : List Float :=
  c.parameters.numbers ++ c.matrices.entries.flatMap (fun e => e.2.numbers) ++
    c.profiles.entries.flatMap fun e => e.2.numbers

end CodeComplexity
