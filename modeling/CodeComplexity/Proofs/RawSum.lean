import CodeComplexity.Proofs.Deviation
import CodeComplexity.Proofs.Rounding
import CodeComplexity.Score

/-!
The raw sum of a vector against the profile it is judged by.

The sum of the components and the sum of the upper ends are taken in the same order. Each step
rounds, but rounding keeps the order, so term by term the one sum stays up to the other; and so it
does when both have run off the range, where their quotient is no number.
-/

namespace CodeComplexity

open Double

lemma Interval.le_max_of_contains {i : Interval} {x : Float} (hi : i.isProper = true)
    (h : i.contains x = true) : x.isFinite ∧ x ≤ i.max := by
  obtain ⟨hmin, hmax, -⟩ := isProper_eq_true.1 hi
  simp only [contains, Bool.and_eq_true, decide_eq_true_eq] at h
  refine ⟨?_, h.2⟩
  have hlow := (le_iff.1 h.1).2.2
  have hhigh := (le_iff.1 h.2).2.2
  rw [value_of_isFinite hmin] at hlow
  rw [value_of_isFinite hmax] at hhigh
  rcases isFinite_or_end x with hx | hx | hx
  · exact hx
  · rw [hx] at hhigh
    exact absurd hhigh (EReal.coe_lt_top _).not_ge
  · rw [hx] at hlow
    exact absurd hlow (EReal.bot_lt_coe _).not_ge

/-- What lies inside a profile has a sum up to its limit. -/
lemma Profile.total_le_upperSum {p : Profile} {v : ComplexityVector}
    (hp : ∀ d, (p.get d).isProper = true) (h : p.contains v = true) : v.total ≤ p.upperSum := by
  have hd (d : Dimension) :
      (v.get d).isFinite ∧ (p.get d).max.isFinite ∧ v.get d ≤ (p.get d).max := by
    have hinside : (p.get d).contains (v.get d) = true :=
      List.all_eq_true.1 h d (Dimension.mem_all d)
    obtain ⟨hfinite, hle⟩ := Interval.le_max_of_contains (hp d) hinside
    exact ⟨hfinite, (Interval.isProper_eq_true.1 (hp d)).2.1, hle⟩
  have hadd {x y : Float} (d : Dimension) (hxy : x ≤ y) : x + v.get d ≤ y + (p.get d).max :=
    add_le_add_of_isFinite (hd d).1 (hd d).2.1 hxy (hd d).2.2
  exact hadd .coupling (hadd .async (hadd .state (hadd .nesting (hd .control).2.2)))

namespace Scorer

variable {s : Scorer} {v : ComplexityVector} {t : ModuleType}

/-- A sum up to its limit has no ratio above one: either it has none, or one is not exceeded. -/
lemma not_one_lt_ratio (h : v.total ≤ s.registry.rawSumLimit t) :
    ¬1.0 < (s.score v t).rawSumRatio := by
  change ¬1.0 < Rounding.toPlaces (s.rawSumRatio v t) 3
  intro hlt
  obtain ⟨-, hnumber, hlt⟩ := lt_iff.1 hlt
  rw [Rounding.exact_three.isNaN_toPlaces] at hnumber
  have hone : s.rawSumRatio v t ≤ 1.0 := by
    unfold rawSumRatio at hnumber ⊢
    by_cases hpos : 0.0 < s.registry.rawSumLimit t
    · simp only [hpos, if_true] at hnumber ⊢
      rw [le_iff_value hnumber rfl, value_one]
      exact value_div_le_one hpos (le_iff.1 h).2.2 hnumber
    · simp only [hpos, if_false]
      decide
  exact hlt.not_ge (le_iff.1 (Rounding.toPlaces_three_le_one hone)).2.2

/-- **A canonical unit keeps to the limit of its profile.** In a valid registry, for every vector
of numbers, infinite ones included, and whatever the strength and the weights: a unit whose raw sum
is reported to exceed its limit is not canonical and violates some dimension. The raw sum of a
canonical unit is up to the limit, and no ratio above one is reported for it. -/
theorem ratio_spec (s : Scorer) (hs : s.registry.validate = .ok ()) (t : ModuleType)
    (v : ComplexityVector) (hv : ∀ d, (v.get d).isNaN = false) :
    let a := Deviation.ofVector s.registry v t
    (1.0 < (s.score v t).rawSumRatio → a.isCanonical = false ∧ a.violations ≠ []) ∧
    (a.isCanonical = true →
      v.total ≤ s.registry.rawSumLimit t ∧ ¬1.0 < (s.score v t).rawSumRatio) := by
  simp only [Deviation.isCanonical_ofVector, Deviation.violations_ofVector]
  have hproper := Registry.isProper_of_validate hs t
  have hinside (h : (s.registry.profile t).contains v = true) :
      v.total ≤ s.registry.rawSumLimit t ∧ ¬1.0 < (s.score v t).rawSumRatio :=
    have hle := Profile.total_le_upperSum hproper h
    ⟨hle, not_one_lt_ratio hle⟩
  refine ⟨fun hratio => ?_, hinside⟩
  have houtside : ¬(s.registry.profile t).contains v = true := fun h => (hinside h).2 hratio
  exact ⟨Bool.not_eq_true _ ▸ houtside,
    (Profile.contains_iff_violations hproper hv).not.1 houtside⟩

/-- A registry in which one module type admits so much that the upper ends have no finite sum. -/
def vastApi : Registry := Registry.shipped.setProfile .api (.upTo (.const 1e308))

/-- A unit just above its limit; and one that reaches every upper end of a vast profile, where the
sum and its limit are infinite and have no ratio. -/
theorem ratio_api :
    (let s : Scorer := .ofRegistry .shipped
     let v : ComplexityVector := ⟨5.0, 3.0, 2.0, 3.0, 3.02⟩
     let a := Deviation.ofVector .shipped v .api
     s.registry.validate = .ok () ∧ (∀ d, (v.get d).isNaN = false) ∧
     1.0 < (s.score v .api).rawSumRatio ∧ a.isCanonical = false ∧ a.violations ≠ []) ∧
    (let s : Scorer := ⟨vastApi, 0.0, .const 1.0⟩
     let v : ComplexityVector := .const 1e308
     s.registry.validate = .ok () ∧ (∀ d, (v.get d).isNaN = false) ∧
     (Deviation.ofVector vastApi v .api).isCanonical = true ∧ v.total.isInf = true ∧
     v.total ≤ vastApi.rawSumLimit .api ∧ ¬1.0 < (s.score v .api).rawSumRatio) := by
  have hv (d : Dimension) :
      ((⟨5.0, 3.0, 2.0, 3.0, 3.02⟩ : ComplexityVector).get d).isNaN = false := by
    cases d <;> decide
  have hw (d : Dimension) : ((PerDimension.const 1e308).get d : Float).isNaN = false := by
    rw [PerDimension.get_const]
    decide +kernel
  have habove : 1.0 <
      ((ofRegistry .shipped).score ⟨5.0, 3.0, 2.0, 3.0, 3.02⟩ .api).rawSumRatio := by
    decide +kernel
  have hvast : vastApi.validate = .ok () := by decide +kernel
  have hcanonical : (Deviation.ofVector vastApi (.const 1e308) .api).isCanonical = true := by
    decide +kernel
  have hfirst := ratio_spec (.ofRegistry .shipped) Registry.validate_shipped .api _ hv
  have hsecond := ratio_spec ⟨vastApi, 0.0, .const 1.0⟩ hvast .api _ hw
  exact ⟨⟨Registry.validate_shipped, hv, habove, hfirst.1 habove⟩,
    ⟨hvast, hw, hcanonical, by decide +kernel, hsecond.2 hcanonical⟩⟩

end Scorer

end CodeComplexity
