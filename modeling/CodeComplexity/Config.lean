import CodeComplexity.NameMap
import CodeComplexity.Registry
import CodeComplexity.Score

/-!
# Configurations

Scoring parameters, replacements for shipped matrices and profiles, and whether the module type of a
unit without a recognised hint is inferred. A configuration may say less than everything: whatever
it leaves out keeps its shipped value.
-/

namespace CodeComplexity

/-- The parameters shared by every analysis. -/
structure Parameters where
  /-- The regularisation strength. Zero asks for the default in scores and is taken as it is in
  convergence analyses. -/
  epsilon : Float
  threshold : Float
  weights : ComplexityVector
  deriving DecidableEq

namespace Parameters

/-- The parameters of a configuration that gives none. -/
def default : Parameters := ⟨defaultEpsilon, defaultThreshold, ComplexityVector.defaultWeights⟩

end Parameters

/-- Whether a weight is finite and not below zero. -/
def isWeight (x : Float) : Bool := x.isFinite && !decide (x < 0.0)

/-- The first dimension whose weight is none. -/
def invalidWeight? (weights : ComplexityVector) : Option Dimension :=
  Dimension.all.find? fun d => !isWeight (weights.get d)

/-- Whether all weights are finite and not below zero. -/
def weightsValid (weights : ComplexityVector) : Bool := (invalidWeight? weights).isNone

/-- The intervals of a profile that a configuration replaces. -/
abbrev ProfileOverride := PerDimension (Option Interval)

/-- Lays the given intervals over a profile. -/
def ProfileOverride.apply (o : ProfileOverride) (p : Profile) : Profile :=
  o.zipWith (fun given shipped => given.getD shipped) p

structure Config where
  parameters : Parameters
  /-- Full replacements of matrices, keyed by the names of module types. -/
  matrices : NameMap (InteractionMatrix Float)
  /-- Partial replacements of profiles, keyed by the names of module types. -/
  profiles : NameMap ProfileOverride
  /-- Whether the best fit stands in for a hint that is not recognised. -/
  inferUnknown : Bool

namespace Config

/-- The configuration that replaces nothing. -/
def default : Config := ⟨.default, .empty, .empty, true⟩

/-- The module type that a key names; unlike a hint, a key must be recognised. -/
def resolve (name : String) : Except ConfigError ModuleType :=
  match ModuleType.ofName? name with
  | some t => .ok t
  | none => .error (.unknownModuleType name)

/-- What is wrong with the parameters: the strength, then the threshold, then the first weight. -/
def parameterFault? (p : Parameters) : Option ConfigError :=
  if !p.epsilon.isFinite || p.epsilon < 0.0 then some (.invalidEpsilon p.epsilon)
  else if !p.threshold.isFinite || p.threshold ≤ 0.0 then some (.invalidThreshold p.threshold)
  else (invalidWeight? p.weights).map fun d => .invalidWeight d (p.weights.get d)

/-- Checks the parameters and then the keys, in ascending order, those of the matrices first. What
the tables hold is checked when the registry is built. -/
def validate (c : Config) : Except ConfigError Unit := do
  Registry.refuse (parameterFault? c.parameters)
  (c.matrices.keys ++ c.profiles.keys).forM fun name => do discard (resolve name)

/-- The configured matrices with their module types. -/
def matrixOverrides (c : Config) :
    Except ConfigError (List (ModuleType × InteractionMatrix Float)) :=
  c.matrices.entries.mapM fun e => do return (← resolve e.1, e.2)

/-- The configured profiles with their module types, laid over the shipped ones. -/
def profileOverrides (c : Config) : Except ConfigError (List (ModuleType × Profile)) :=
  c.profiles.entries.mapM fun e => do
    let t ← resolve e.1
    return (t, e.2.apply t.shippedProfile)

/-- The registry with the replacements of a configuration. -/
def registry (c : Config) : Except ConfigError Registry := do
  let matrices ← c.matrixOverrides
  let profiles ← c.profileOverrides
  Registry.withOverrides matrices profiles

end Config

end CodeComplexity
