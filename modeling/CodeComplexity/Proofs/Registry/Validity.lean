import Mathlib.Data.List.Basic
import CodeComplexity.Registry

/-!
Validity of a registry, reduced to the faults of its sixteen entries, and the validity of the
shipped one.
-/

namespace CodeComplexity

lemma Interval.isProper_eq_true {i : Interval} :
    i.isProper = true ↔ i.min.isFinite ∧ i.max.isFinite ∧ ¬i.max < i.min := by
  simp [isProper, and_assoc]

namespace Registry

/-! ### Failing with the first fault -/

@[simp] lemma refuse_none : refuse none = .ok () := rfl
@[simp] lemma refuse_some (e : ConfigError) : refuse (some e) = .error e := rfl

lemma refuse_eq_ok {f : Option ConfigError} : refuse f = .ok () ↔ f = none := by
  cases f <;> simp

lemma refuse_eq_error {f : Option ConfigError} {e : ConfigError} :
    refuse f = .error e ↔ f = some e := by
  cases f <;> simp

/-- Two checks in sequence report the fault of the first, or else that of the second. -/
lemma refuse_then (f g : Option ConfigError) :
    (do refuse f; refuse g : Except ConfigError Unit) = refuse (f.or g) := by
  cases f <;> rfl

/-- Checks of a list in sequence report the fault of the first entry that has one. -/
lemma forM_refuse {α : Type} (fault : α → Option ConfigError) (os : List α) :
    (os.forM fun o => refuse (fault o)) = refuse (os.findSome? fault) := by
  induction os with
  | nil => rfl
  | cons o rest ih =>
    change (do refuse (fault o); rest.forM fun o => refuse (fault o)) = _
    rw [ih, List.findSome?_cons]
    cases fault o <;> rfl

/-! ### The entries of a registry -/

/-- What is wrong with the entry of one module type, its matrix before its profile. -/
def entryFault? (r : Registry) (t : ModuleType) : Option ConfigError :=
  (matrixFault? t (r.matrix t)).or (profileFault? t (r.profile t))

lemma entryFault?_eq_none {r : Registry} {t : ModuleType} :
    r.entryFault? t = none ↔
      matrixFault? t (r.matrix t) = none ∧ profileFault? t (r.profile t) = none := by
  simp [entryFault?]

lemma validate_eq (r : Registry) :
    r.validate = refuse (ModuleType.all.findSome? r.entryFault?) := by
  rw [← forM_refuse]
  exact congrArg (ModuleType.all.forM ·) (funext fun t => refuse_then _ _)

/-- A registry is valid exactly if no module type's entry has a fault. -/
theorem validate_eq_ok {r : Registry} :
    r.validate = .ok () ↔
      ∀ t, matrixFault? t (r.matrix t) = none ∧ profileFault? t (r.profile t) = none := by
  rw [validate_eq, refuse_eq_ok, List.findSome?_eq_none_iff]
  simp [entryFault?_eq_none]

theorem validate_shipped : shipped.validate = .ok () := by
  decide +kernel

lemma matrixFault?_shippedMatrix (t : ModuleType) : matrixFault? t t.shippedMatrix = none :=
  (validate_eq_ok.mp validate_shipped t).1

lemma profileFault?_shippedProfile (t : ModuleType) : profileFault? t t.shippedProfile = none :=
  (validate_eq_ok.mp validate_shipped t).2

/-! ### The numbers of a valid registry -/

lemma isFinite_of_matrixFault? {t : ModuleType} {m : InteractionMatrix Float}
    (h : matrixFault? t m = none) (i j : Dimension) : (m.entry i j).isFinite := by
  rw [matrixFault?] at h
  cases hfind : InteractionMatrix.places.find? fun p => !(m.entry p.1 p.2).isFinite with
  | some p => rw [hfind] at h; exact absurd h (by simp)
  | none => simpa using List.find?_eq_none.1 hfind (i, j) (InteractionMatrix.mem_places _)

lemma isFinite_entry {r : Registry} (hr : r.validate = .ok ()) (t : ModuleType) (i j : Dimension) :
    ((r.matrix t).entry i j).isFinite :=
  isFinite_of_matrixFault? (validate_eq_ok.1 hr t).1 i j

lemma profileFault?_eq_none {t : ModuleType} {p : Profile} :
    profileFault? t p = none ↔ ∀ d, (p.get d).isProper = true := by
  simp [profileFault?, List.find?_eq_none]

lemma isProper_of_validate {r : Registry} (hr : r.validate = .ok ()) (t : ModuleType)
    (d : Dimension) : ((r.profile t).get d).isProper = true :=
  profileFault?_eq_none.1 (validate_eq_ok.1 hr t).2 d

end Registry

end CodeComplexity
