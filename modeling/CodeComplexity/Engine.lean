import CodeComplexity.BestFit
import CodeComplexity.Config
import CodeComplexity.Convergence
import CodeComplexity.Decomposition
import CodeComplexity.Deviation
import CodeComplexity.Recommendation

/-!
# The engine

An engine holds a checked configuration and the registry made from it, and runs every analysis of a
unit at once. All parts of a report are about one module type: the hint, or else the best fit.
-/

namespace CodeComplexity

structure CodeUnit where
  /-- An identifier of the caller's that the report repeats. -/
  name : Option String
  vector : ComplexityVector
  hint : ModuleType
  /-- An earlier measurement of the same unit. -/
  previous : Option Measurement
  /-- Whether the caller has seen the unit's scores oscillate. -/
  oscillating : Bool
  deriving DecidableEq

structure UnitReport where
  name : Option String
  hint : ModuleType
  /-- The module type that the analyses are about. -/
  moduleType : ModuleType
  bestFit : BestFit
  tensor : TensorScore
  level : Level
  deviation : Deviation
  decomposition : Decomposition
  recommendations : List Recommendation
  convergence : Option Convergence
  deriving DecidableEq

/-- A registry and the configuration it was made from. -/
structure Engine where
  registry : Registry
  config : Config

namespace Engine

/-- The engine of a configuration, which is checked as a whole before its registry is built. -/
def ofConfig (c : Config) : Except ConfigError Engine := do
  c.validate
  return ⟨← c.registry, c⟩

/-- The engine that no configuration changes. -/
def shipped : Engine := ⟨.shipped, .default⟩

def weights (e : Engine) : ComplexityVector := e.config.parameters.weights

/-- The scorer with the configured strength and weights. -/
def scorer (e : Engine) : Scorer := ⟨e.registry, e.config.parameters.epsilon, e.weights⟩

def score (e : Engine) (v : ComplexityVector) (t : ModuleType) : TensorScore := e.scorer.score v t

def deviation (e : Engine) (v : ComplexityVector) (t : ModuleType) : Deviation :=
  .ofVector e.registry v t

def bestFit (e : Engine) (v : ComplexityVector) : BestFit := .ofVector e.registry v

/-- The weighted score of a vector in three parts. -/
def decomposition (e : Engine) (v : ComplexityVector) : Decomposition := .ofVector v e.weights

def recommendations (e : Engine) (v : ComplexityVector) : List Recommendation :=
  Recommendation.ofVector v e.weights

/-- Asks about a score with the configured threshold and strength. -/
def convergenceRequest (e : Engine) (score : Float) : Convergence.Request :=
  { Convergence.Request.ofScore score with
    threshold := some e.config.parameters.threshold
    epsilon := some e.config.parameters.epsilon }

/-- The module type that a unit is judged by: its hint if that is recognised, or else the best fit
if inference is switched on. -/
def resolve (e : Engine) (hint : ModuleType) (fit : BestFit) : ModuleType :=
  if hint.isKnown then hint else if e.config.inferUnknown then fit.moduleType else .unknown

/-- Runs every analysis of a unit. Convergence needs an earlier measurement and is that of the
rounded score. -/
def analyze (e : Engine) (u : CodeUnit) : UnitReport :=
  let fit := e.bestFit u.vector
  let t := e.resolve u.hint fit
  let tensor := e.score u.vector t
  { name := u.name
    hint := u.hint
    moduleType := t
    bestFit := fit
    tensor := tensor
    level := tensor.level
    deviation := e.deviation u.vector t
    decomposition := e.decomposition u.vector
    recommendations := e.recommendations u.vector
    convergence := u.previous.map fun before =>
      .ofRequest
        { e.convergenceRequest tensor.regularized with
          step := some (before, u.vector)
          oscillating := u.oscillating } }

/-- Analyses units one by one, in their order. -/
def analyzeAll (e : Engine) (us : List CodeUnit) : List UnitReport := us.map e.analyze

end Engine

end CodeComplexity
