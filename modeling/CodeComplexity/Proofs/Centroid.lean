import CodeComplexity.Proofs.Deviation
import CodeComplexity.Proofs.Double.Number
import CodeComplexity.Proofs.Double.Range

/-!
Whether a profile admits its own centroid.

The midpoint of an interval is half the sum of its ends. Twice an end is on the grid, so rounding
the sum keeps it between twice the ends, and halving, with the rounding of what is very small, keeps
it between the ends. Only a sum that runs off the range leaves the interval, and it always does.
-/

namespace CodeComplexity

open Double

namespace Interval

variable {i : Interval}

/-- With room for one more binary digit no sum runs off the range. -/
lemma isFinite_sum (hlow : i.min.abs ≤ 4e307) (hhigh : i.max.abs ≤ 4e307) :
    (i.min + i.max).isFinite := by
  have hbound : Within 1022 4e307 := within_of_fits (by decide +kernel)
  exact ((within_of_abs_le hlow hbound).add (within_of_abs_le hhigh hbound) (by decide)).finite

section Proper

variable (hi : i.isProper = true)

include hi

lemma not_isNaN_midpoint : i.midpoint.isNaN = false := by
  obtain ⟨hmin, hmax, -⟩ := isProper_eq_true.1 hi
  exact not_isNaN_div (approximates_add hmin hmax).not_isNaN rfl (by decide)

lemma contains_midpoint (hfinite : (i.min + i.max).isFinite) : i.contains i.midpoint = true := by
  obtain ⟨hmin, hmax, hordered⟩ := isProper_eq_true.1 hi
  have hle : real i.min ≤ real i.max := by
    rwa [not_lt_iff (not_isNaN_of_isFinite hmax) (not_isNaN_of_isFinite hmin),
      le_iff_real hmin hmax] at hordered
  have hsum := (approximates_add hmin hmax).real_of_isFinite hfinite
  have hlow : 2 * real i.min ≤ real (i.min + i.max) :=
    hsum ▸ onGrid_le_nearest (onGrid_real i.min).two_mul (by linarith)
  have hhigh : real (i.min + i.max) ≤ 2 * real i.max :=
    hsum ▸ nearest_le_onGrid (onGrid_real i.max).two_mul (by linarith)
  have hhalf : Approximates i.midpoint (real (i.min + i.max) / 2) :=
    real_two ▸ approximates_div (y := 2.0) hfinite rfl (by rw [real_two]; norm_num)
  rw [contains, Bool.and_eq_true, decide_eq_true_eq, decide_eq_true_eq,
    le_iff_value (not_isNaN_of_isFinite hmin) hhalf.not_isNaN,
    le_iff_value hhalf.not_isNaN (not_isNaN_of_isFinite hmax)]
  exact ⟨hhalf.le_value hmin (by linarith), hhalf.value_le hmax (by linarith)⟩

/-- An infinite sum has an infinite half, beyond the end of the same sign. -/
lemma excludes_midpoint_of_overflow (h : ¬(i.min + i.max).isFinite) :
    i.excludes i.midpoint = true := by
  obtain ⟨hmin, hmax, -⟩ := isProper_eq_true.1 hi
  obtain ⟨s, hs⟩ := (isFinite_or_infinity (f := unpacked (i.min + i.max))
    (approximates_add hmin hmax).not_isNaN).resolve_left h
  have hmid : unpacked i.midpoint = .infinity s := unpacked_infinity_div hs rfl (by decide)
  have hnumber := not_isNaN_midpoint hi
  rw [excludes, Bool.or_eq_true, decide_eq_true_eq, decide_eq_true_eq,
    lt_iff_value hnumber (not_isNaN_of_isFinite hmin),
    lt_iff_value (not_isNaN_of_isFinite hmax) hnumber, value_of_isFinite hmin,
    value_of_isFinite hmax, value, hmid]
  cases s with
  | negative => exact .inl (EReal.bot_lt_coe _)
  | positive => exact .inr (EReal.coe_lt_top _)

/-- **A midpoint leaves its interval exactly if the sum of the ends runs off the range.** -/
theorem excludes_midpoint : i.excludes i.midpoint = !(i.min + i.max).isFinite := by
  by_cases hfinite : (i.min + i.max).isFinite
  · have hinside := contains_midpoint hi hfinite
    rw [contains_eq_not_excludes hi (not_isNaN_midpoint hi), Bool.not_eq_true'] at hinside
    rw [hinside, hfinite, Bool.not_true]
  · rw [excludes_midpoint_of_overflow hi hfinite, Bool.eq_false_of_not_eq_true hfinite,
      Bool.not_false]

end Proper

end Interval

namespace Profile

lemma get_centroid (p : Profile) (d : Dimension) : p.centroid.get d = (p.get d).midpoint :=
  PerDimension.get_map ..

/-- **Where a centroid breaks out of its own profile**, for a profile without a fault: in the
dimensions where the sum of the two ends runs off the range, and nowhere else. So it lies inside
exactly if there is no such dimension, as when no end is beyond `4e307`. -/
theorem contains_centroid_iff (t : ModuleType) (p : Profile)
    (hp : Registry.profileFault? t p = none) :
    p.violations p.centroid =
        Dimension.all.filter (fun d => !((p.get d).min + (p.get d).max).isFinite) ∧
      (p.contains p.centroid = true ↔ ∀ d, ((p.get d).min + (p.get d).max).isFinite) ∧
      ((∀ d, (p.get d).min.abs ≤ 4e307 ∧ (p.get d).max.abs ≤ 4e307) →
        p.contains p.centroid = true ∧ p.violations p.centroid = []) := by
  have hproper := Registry.profileFault?_eq_none.1 hp
  have hviolations : p.violations p.centroid =
      Dimension.all.filter (fun d => !((p.get d).min + (p.get d).max).isFinite) := by
    refine List.filter_congr fun d _ => ?_
    rw [get_centroid, Interval.excludes_midpoint (hproper d)]
  have hinside := contains_iff_violations (v := p.centroid) hproper fun d => by
    rw [get_centroid, Interval.not_isNaN_midpoint (hproper d)]
  have hempty : p.violations p.centroid = [] ↔ ∀ d, ((p.get d).min + (p.get d).max).isFinite := by
    simp [hviolations]
  refine ⟨hviolations, hinside.trans hempty, fun h => ?_⟩
  have hnone := hempty.2 fun d => Interval.isFinite_sum (h d).1 (h d).2
  exact ⟨hinside.2 hnone, hnone⟩

/-- So for intervals as wide and as narrow as they can be. -/
theorem contains_centroid_extreme :
    let p : Profile := ⟨⟨-1.7e308, 1.7e308⟩, ⟨5e-324, 5e-324⟩, ⟨-5e-324, 0.0⟩, ⟨0.0, 1.7e308⟩,
      ⟨8e307, 8e307⟩⟩
    Registry.profileFault? .api p = none ∧ p.contains p.centroid = true := by
  intro p
  have hp : Registry.profileFault? .api p = none := by decide +kernel
  exact ⟨hp, (contains_centroid_iff .api p hp).2.1.2 fun d => by cases d <;> decide +kernel⟩

/-- **But a profile need not admit its centroid**: the ends of an interval may both be so large that
their sum is infinite. -/
theorem not_contains_centroid : ¬∀ p : Profile, (∀ t, Registry.profileFault? t p = none) →
    p.contains p.centroid = true ∧ p.violations p.centroid = [] := fun h => by
  have hinside := (h ⟨⟨1e308, 1.5e308⟩, ⟨0.0, 1.0⟩, ⟨0.0, 1.0⟩, ⟨0.0, 1.0⟩, ⟨0.0, 1.0⟩⟩ fun t => by
    cases t <;> decide +kernel).1
  revert hinside
  decide +kernel

end Profile

end CodeComplexity
