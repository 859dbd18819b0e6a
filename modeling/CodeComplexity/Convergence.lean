import CodeComplexity.Score

/-!
# Convergence

A score is judged by where it lies relative to the stretch of length `ε` below its threshold: below
it the score is safe, inside it a case for review, at the threshold or above a violation. Two
measurements of a unit show by the local slope whether changes to it settle.
-/

namespace CodeComplexity

inductive ConvergenceStatus
  | safe
  | review
  | violation
  | oscillating
  deriving DecidableEq, Repr

namespace ConvergenceStatus

def all : List ConvergenceStatus := [safe, review, violation, oscillating]

def severity : ConvergenceStatus → Nat
  | safe => 0
  | review => 1
  | violation => 2
  | oscillating => 3

def name : ConvergenceStatus → String
  | safe => "safe"
  | review => "review"
  | violation => "violation"
  | oscillating => "oscillating"

def ofName? (s : String) : Option ConvergenceStatus := all.find? fun x => x.name == s

@[simp] theorem ofName?_name (s : ConvergenceStatus) : ofName? s.name = some s := by
  cases s <;> decide

/-- The verdict on a convergence score; oscillation overrides every other one. -/
def ofScore (score : Float) (oscillating : Bool) : ConvergenceStatus :=
  if oscillating then .oscillating
  else if score < 0.0 then safe
  else if score < 1.0 then review
  else violation

end ConvergenceStatus

structure Measurement where
  vector : ComplexityVector
  score : Float
  deriving DecidableEq

/-- The convergence of one score. All numbers but the first three are rounded for the report. -/
structure Convergence where
  score : Float
  threshold : Float
  epsilon : Float
  convergenceScore : Float
  status : ConvergenceStatus
  distanceToTarget : Float
  distanceToThreshold : Float
  slope : Float
  deriving DecidableEq

namespace Convergence

/-- Vectors nearer than this count as the same. -/
def slopeTolerance : Float := 1e-10

/-- Where a score lies in the stretch of length `epsilon` below the threshold: at zero it begins,
at one it ends. A stretch of length zero is all or nothing. -/
def scoreOf (current threshold epsilon : Float) : Float :=
  let target := threshold - epsilon
  if epsilon == 0.0 then if target < current then 1.0 / 0.0 else 0.0
  else (current - target) / epsilon

/-- The change of the score relative to the distance between the vectors. -/
def slopeBetween (v w : ComplexityVector) (s t : Float) : Float :=
  let distance := v.euclideanDistance w
  if distance < slopeTolerance then 0.0 else (s - t).abs / distance

/-- What a convergence analysis is asked. -/
structure Request where
  score : Float
  threshold : Option Float
  epsilon : Option Float
  /-- The earlier measurement and the vector that the score belongs to. -/
  step : Option (Measurement × ComplexityVector)
  oscillating : Bool
  deriving DecidableEq

def Request.ofScore (score : Float) : Request := ⟨score, none, none, none, false⟩

/-- Answers a request. The verdict is that of the convergence score before rounding; an epsilon of
zero is taken as it is. -/
def ofRequest (r : Request) : Convergence :=
  let threshold := r.threshold.getD defaultThreshold
  let epsilon := r.epsilon.getD defaultEpsilon
  let score := scoreOf r.score threshold epsilon
  let slope := match r.step with
    | some (before, current) => slopeBetween before.vector current before.score r.score
    | none => 0.0
  { score := r.score
    threshold := threshold
    epsilon := epsilon
    convergenceScore := Rounding.toPlaces score 3
    status := .ofScore score r.oscillating
    distanceToTarget := Rounding.toPlaces (r.score - (threshold - epsilon)) 2
    distanceToThreshold := Rounding.toPlaces (threshold - r.score) 2
    slope := Rounding.toPlaces slope 3 }

/-- Where the stretch below the threshold begins. -/
def target (c : Convergence) : Float := c.threshold - c.epsilon

/-- Whether the score is safe. -/
def isConverged (c : Convergence) : Bool := c.status == .safe

/-- Whether the local slope is that of a contraction. -/
def canConverge (c : Convergence) : Bool := decide (c.slope < 1.0)

end Convergence

end CodeComplexity
