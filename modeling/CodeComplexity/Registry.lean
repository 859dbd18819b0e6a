import CodeComplexity.ConfigError
import CodeComplexity.Shipped

/-!
# The registry

A registry assigns a matrix and a profile to every module type, so that a lookup cannot fail. It
starts from the shipped values; replacements are checked as they come, and a later one for the
same module type wins.
-/

namespace CodeComplexity

structure Registry where
  matrix : ModuleType → InteractionMatrix Float
  profile : ModuleType → Profile

namespace Registry

def shipped : Registry := ⟨ModuleType.shippedMatrix, ModuleType.shippedProfile⟩

def setMatrix (r : Registry) (t : ModuleType) (m : InteractionMatrix Float) : Registry :=
  { r with matrix := fun u => if u = t then m else r.matrix u }

def setProfile (r : Registry) (t : ModuleType) (p : Profile) : Registry :=
  { r with profile := fun u => if u = t then p else r.profile u }

@[simp] theorem matrix_setMatrix (r : Registry) (t u : ModuleType) (m : InteractionMatrix Float) :
    (r.setMatrix t m).matrix u = if u = t then m else r.matrix u := rfl

@[simp] theorem profile_setMatrix (r : Registry) (t : ModuleType) (m : InteractionMatrix Float) :
    (r.setMatrix t m).profile = r.profile := rfl

@[simp] theorem profile_setProfile (r : Registry) (t u : ModuleType) (p : Profile) :
    (r.setProfile t p).profile u = if u = t then p else r.profile u := rfl

@[simp] theorem matrix_setProfile (r : Registry) (t : ModuleType) (p : Profile) :
    (r.setProfile t p).matrix = r.matrix := rfl

section Validity

/-- The first thing wrong with a matrix: an entry that is not finite, then an asymmetry, then a
diagonal entry that is not above zero. -/
def matrixFault? (t : ModuleType) (m : InteractionMatrix Float) : Option ConfigError :=
  match InteractionMatrix.places.find? fun p => !(m.entry p.1 p.2).isFinite with
  | some (i, j) => some (.nonFiniteEntry t i j)
  | none =>
    match m.asymmetry with
    | some (i, j) => some (.asymmetricMatrix t i j)
    | none =>
      (Dimension.all.find? fun d => decide (m.entry d d ≤ 0.0)).map fun d =>
        .nonPositiveDiagonal t d (m.entry d d)

/-- The first interval of a profile that is not proper. -/
def profileFault? (t : ModuleType) (p : Profile) : Option ConfigError :=
  (Dimension.all.find? fun d => !(p.get d).isProper).map fun d => .improperInterval t d (p.get d)

/-- Fails with a fault if there is one. -/
def refuse : Option ConfigError → Except ConfigError Unit
  | some e => .error e
  | none => .ok ()

/-- Checks every entry: module types in enumeration order, the matrix of each before its
profile. -/
def validate (r : Registry) : Except ConfigError Unit :=
  ModuleType.all.forM fun t => do
    refuse (matrixFault? t (r.matrix t))
    refuse (profileFault? t (r.profile t))

end Validity

/-- Replaces a matrix that has no fault. -/
def overrideMatrix (r : Registry) (o : ModuleType × InteractionMatrix Float) :
    Except ConfigError Registry := do
  refuse (matrixFault? o.1 o.2)
  return r.setMatrix o.1 o.2

/-- Replaces a profile that has no fault. -/
def overrideProfile (r : Registry) (o : ModuleType × Profile) : Except ConfigError Registry := do
  refuse (profileFault? o.1 o.2)
  return r.setProfile o.1 o.2

/-- The shipped registry with replacements, matrices before profiles, each list from the front. -/
def withOverrides (matrices : List (ModuleType × InteractionMatrix Float))
    (profiles : List (ModuleType × Profile)) : Except ConfigError Registry := do
  let r ← matrices.foldlM overrideMatrix shipped
  profiles.foldlM overrideProfile r

/-- The limit of raw sums: the sum of the upper ends of the profile. -/
def rawSumLimit (r : Registry) (t : ModuleType) : Float := (r.profile t).upperSum

/-- Whether a vector lies outside the profile of every known module type. -/
def isOrphan (r : Registry) (v : ComplexityVector) : Bool :=
  !ModuleType.allKnown.any fun t => (r.profile t).contains v

/-- Whether the diagonal of each module type's matrix dominates. -/
def dominance (r : Registry) : List (ModuleType × Bool) :=
  ModuleType.all.map fun t => (t, (r.matrix t).isDominant Float.abs)

/-- Whether two registries hold equal numbers everywhere. -/
def same (r s : Registry) : Bool :=
  ModuleType.all.all fun t =>
    (InteractionMatrix.places.all fun p => (r.matrix t).entry p.1 p.2 == (s.matrix t).entry p.1 p.2)
      && Dimension.all.all fun d => ((r.profile t).get d).same ((s.profile t).get d)

end Registry

end CodeComplexity
