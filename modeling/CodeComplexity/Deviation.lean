import CodeComplexity.Distance
import CodeComplexity.Registry
import CodeComplexity.Rounding

/-!
# Deviation from a profile

How far a vector lies from the middle of the profile of a module type, and in which dimensions it
breaks out of it. A unit outside its own profile is an orphan if no known profile admits it.
-/

namespace CodeComplexity

/-- Where a vector lies relative to the profiles. -/
inductive DeviationStatus
  /-- Inside the profile of its own module type. -/
  | canonical
  /-- Outside its own profile and inside another known one. -/
  | deviated
  /-- Outside its own profile and every known one. -/
  | orphan
  deriving DecidableEq, Repr

namespace DeviationStatus

def all : List DeviationStatus := [canonical, deviated, orphan]

def name : DeviationStatus → String
  | canonical => "canonical"
  | deviated => "deviated"
  | orphan => "orphan"

def ofName? (s : String) : Option DeviationStatus := all.find? fun x => x.name == s

@[simp] theorem ofName?_name (s : DeviationStatus) : ofName? s.name = some s := by
  cases s <;> decide

end DeviationStatus

/-- How a vector deviates from the profile of a module type, rounded for the report. -/
structure Deviation where
  euclideanDistance : Float
  interactionDistance : Float
  maxDimensionDeviation : Float
  /-- The interaction distance on a scale that ends at one. -/
  normalizedDeviation : Float
  isCanonical : Bool
  isOrphan : Bool
  moduleType : ModuleType
  vector : ComplexityVector
  violations : List Dimension
  status : DeviationStatus
  deriving DecidableEq

namespace Deviation

/-- The interaction distance that counts as a full deviation. -/
def normalizationScale : Float := 50.0

/-- The number itself if it is below one, and one otherwise; one also stands in for the value that
is no number. -/
def atMostOne (x : Float) : Float := if x < 1.0 then x else 1.0

/-- The largest magnitude of a component; a component that is no number is passed over. -/
def largestMagnitude (v : ComplexityVector) : Float :=
  Dimension.all.foldl (fun m d => if m < (v.get d).abs then (v.get d).abs else m) 0.0

/-- The status of a vector that is or is not inside its own profile and inside any known one. -/
def statusOf (isCanonical isOrphan : Bool) : DeviationStatus :=
  if isCanonical then .canonical else if isOrphan then .orphan else .deviated

def ofVector (r : Registry) (v : ComplexityVector) (t : ModuleType) : Deviation :=
  let profile := r.profile t
  let centroid := profile.centroid
  let distance := v.interactionDistance centroid (r.matrix t)
  { euclideanDistance := Rounding.toPlaces (v.euclideanDistance centroid) 3
    interactionDistance := Rounding.toPlaces distance 3
    maxDimensionDeviation := Rounding.toPlaces (largestMagnitude (v - centroid)) 3
    normalizedDeviation := Rounding.toPlaces (atMostOne (distance / normalizationScale)) 3
    isCanonical := profile.contains v
    isOrphan := r.isOrphan v
    moduleType := t
    vector := v
    violations := profile.violations v
    status := statusOf (profile.contains v) (r.isOrphan v) }

end Deviation

end CodeComplexity
