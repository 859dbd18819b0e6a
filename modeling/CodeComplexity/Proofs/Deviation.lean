import CodeComplexity.Deviation
import CodeComplexity.Proofs.Double.Value
import CodeComplexity.Proofs.Registry.Validity

/-!
How the parts of a deviation fit together.

A vector is held against its own profile twice, once for whether it lies inside and once for the
dimensions in which it breaks out, and against the profiles of the known types once more. In a valid
registry no end of an interval fails to be a number, so the two ways of asking about one profile are
complements of each other, boundaries included, and the status follows from the scan of the others.
-/

namespace CodeComplexity

open Double

/-! ### One profile -/

/-- What is not strictly beyond an end lies between the ends. -/
lemma Interval.contains_eq_not_excludes {i : Interval} {x : Float} (hi : i.isProper = true)
    (hx : x.isNaN = false) : i.contains x = !i.excludes x := by
  obtain ⟨hmin, hmax, -⟩ := isProper_eq_true.1 hi
  have hlow : ¬x < i.min ↔ i.min ≤ x := not_lt_iff hx (not_isNaN_of_isFinite hmin)
  have hhigh : ¬i.max < x ↔ x ≤ i.max := not_lt_iff (not_isNaN_of_isFinite hmax) hx
  simp only [contains, excludes, ← hlow, ← hhigh, decide_not, Bool.not_or]

lemma Profile.mem_violations {p : Profile} {v : ComplexityVector} {d : Dimension} :
    d ∈ p.violations v ↔ v.get d < (p.get d).min ∨ (p.get d).max < v.get d := by
  simp [violations, Interval.excludes]

lemma Profile.violations_sublist (p : Profile) (v : ComplexityVector) :
    (p.violations v).Sublist Dimension.all := List.filter_sublist

/-- **Inside is breaking out nowhere.** -/
lemma Profile.contains_iff_violations {p : Profile} {v : ComplexityVector}
    (hp : ∀ d, (p.get d).isProper = true) (hv : ∀ d, (v.get d).isNaN = false) :
    p.contains v = true ↔ p.violations v = [] := by
  rw [contains, violations, List.all_eq_true, List.filter_eq_nil_iff]
  refine forall₂_congr fun d _ => ?_
  rw [Interval.contains_eq_not_excludes (hp d) (hv d), Bool.not_eq_true', Bool.not_eq_true]

/-! ### All profiles -/

namespace Registry

lemma isOrphan_eq_true {r : Registry} {v : ComplexityVector} :
    r.isOrphan v = true ↔ ∀ s, s ≠ .unknown → (r.profile s).contains v = false := by
  rw [isOrphan, Bool.not_eq_true', List.any_eq_false]
  exact forall_congr' fun s => by rw [ModuleType.mem_allKnown, Bool.not_eq_true]

lemma isOrphan_eq_false {r : Registry} {v : ComplexityVector} :
    r.isOrphan v = false ↔ ∃ s, s ≠ .unknown ∧ (r.profile s).contains v = true := by
  rw [← Bool.not_eq_true, isOrphan_eq_true]
  push Not
  exact exists_congr fun s => by rw [Bool.ne_false_iff]

end Registry

/-! ### The status -/

namespace Deviation

section Fields

variable (r : Registry) (v : ComplexityVector) (t : ModuleType)

@[simp] lemma isCanonical_ofVector : (ofVector r v t).isCanonical = (r.profile t).contains v := rfl

@[simp] lemma isOrphan_ofVector : (ofVector r v t).isOrphan = r.isOrphan v := rfl

@[simp] lemma violations_ofVector : (ofVector r v t).violations = (r.profile t).violations v := rfl

@[simp] lemma status_ofVector :
    (ofVector r v t).status = statusOf ((r.profile t).contains v) (r.isOrphan v) := rfl

end Fields

variable {canonical orphan : Bool}

lemma statusOf_eq_canonical : statusOf canonical orphan = .canonical ↔ canonical = true := by
  cases canonical <;> cases orphan <;> decide

lemma statusOf_eq_orphan :
    statusOf canonical orphan = .orphan ↔ canonical = false ∧ orphan = true := by
  cases canonical <;> cases orphan <;> decide

lemma statusOf_eq_deviated :
    statusOf canonical orphan = .deviated ↔ canonical = false ∧ orphan = false := by
  cases canonical <;> cases orphan <;> decide

/-- **The parts of a deviation agree.** In a valid registry, for every vector of numbers, infinite
ones included: the vector is canonical exactly if it violates nothing; the violations are the
dimensions strictly outside the interval, each once and in order; and the status is canonical inside
the own profile, orphan outside of every known one as well, and deviated if the profile of another
known type admits the vector. Whether it is an orphan does not depend on the module type, and only
what is judged as unknown can be an orphan and canonical at once. -/
theorem ofVector_spec (r : Registry) (hr : r.validate = .ok ()) (t : ModuleType)
    (v : ComplexityVector) (hv : ∀ d, (v.get d).isNaN = false) :
    let a := ofVector r v t
    (a.isCanonical = true ↔ a.violations = []) ∧
    (a.violations.Sublist Dimension.all ∧ a.violations.Nodup ∧
      ∀ d, d ∈ a.violations ↔
        v.get d < ((r.profile t).get d).min ∨ ((r.profile t).get d).max < v.get d) ∧
    (a.status = .canonical ↔ a.isCanonical = true) ∧
    (a.status = .deviated ↔ a.isCanonical = false ∧
      ∃ s, s ≠ .unknown ∧ s ≠ t ∧ (r.profile s).contains v = true) ∧
    (a.status = .orphan ↔ a.isCanonical = false ∧
      ∀ s, s ≠ .unknown → (r.profile s).contains v = false) ∧
    (∀ u, (ofVector r v u).isOrphan = a.isOrphan) ∧
    (a.isCanonical = true → a.isOrphan = true → t = .unknown) := by
  simp only [isCanonical_ofVector, isOrphan_ofVector, violations_ofVector, status_ofVector]
  have hsublist := (r.profile t).violations_sublist v
  refine ⟨Profile.contains_iff_violations (Registry.isProper_of_validate hr t) hv,
    ⟨hsublist, Dimension.nodup_all.sublist hsublist, fun d => Profile.mem_violations⟩,
    statusOf_eq_canonical, ?deviated, ?orphan, fun _ => trivial, ?unknown⟩
  case deviated =>
    refine statusOf_eq_deviated.trans (and_congr_right fun houtside => ?_)
    rw [Registry.isOrphan_eq_false]
    refine exists_congr fun s => and_congr_right fun _ => ?_
    -- the own profile does not admit the vector
    refine ⟨fun h => ⟨?_, h⟩, fun h => h.2⟩
    rintro rfl
    exact Bool.noConfusion (houtside.symm.trans h)
  case orphan =>
    exact statusOf_eq_orphan.trans (and_congr_right fun _ => Registry.isOrphan_eq_true)
  case unknown =>
    intro hinside horphan
    by_contra ht
    exact Bool.noConfusion ((Registry.isOrphan_eq_true.1 horphan t ht).symm.trans hinside)

/-- Twelve branch points are too many for every known type; only the unknown one admits them. -/
theorem ofVector_orphan_unknown :
    let v : ComplexityVector := ⟨12.0, 4.0, 1.0, 1.0, 1.0⟩
    Registry.shipped.validate = .ok () ∧ (∀ d, (v.get d).isNaN = false) ∧
    (let a := ofVector .shipped v .unknown
     a.isCanonical = true ∧ a.isOrphan = true ∧ a.violations = [] ∧ a.status = .canonical) ∧
    let b := ofVector .shipped v .lib
    b.status = .orphan ∧ .control ∈ b.violations := by
  intro v
  have hv (d : Dimension) : (v.get d).isNaN = false := by cases d <;> decide
  obtain ⟨hinside, -, hstatus, -⟩ :=
    ofVector_spec .shipped Registry.validate_shipped .unknown v hv
  obtain ⟨-, hviolations, -, -, horphan, -⟩ :=
    ofVector_spec .shipped Registry.validate_shipped .lib v hv
  have hcanonical : (ofVector .shipped v .unknown).isCanonical = true := by decide +kernel
  have hnone (s : ModuleType) (hs : s ≠ .unknown) :
      (Registry.shipped.profile s).contains v = false := by
    revert hs
    cases s <;> decide +kernel
  exact ⟨Registry.validate_shipped, hv,
    ⟨hcanonical, Registry.isOrphan_eq_true.2 hnone, hinside.1 hcanonical, hstatus.2 hcanonical⟩,
    horphan.2 ⟨by decide +kernel, hnone⟩, (hviolations.2.2 .control).2 (.inr (by decide +kernel))⟩

end Deviation

end CodeComplexity
