import CodeComplexity.Proofs.Score

/-!
What the strength of the regularization does to a score.

The part of the score that the strength scales is never below zero, whatever the vector, so a
greater strength adds no less. What it is added to may be of any sign, infinite or no number; the
sum does not fall. Nothing else in a score depends on the strength, and a zero stands for the usual
one.
-/

namespace CodeComplexity

open Double

lemma ComplexityVector.value_norm_nonneg (v : ComplexityVector) : 0 ≤ value v.norm := by
  have hsum : 0 ≤ value v.normSq := by
    refine (below_sum (w := v.zipWith (· * ·) v) fun d => .refl ?_).nonneg
    rw [PerDimension.get_zipWith]
    exact value_mul_self_nonneg (v.get d)
  exact (Below.refl hsum).sqrt.nonneg

namespace Scorer

variable {e e' : Float}

lemma effectiveEpsilon_of_pos (s : Scorer) (he : 0.0 < e) :
    { s with epsilon := e }.effectiveEpsilon = e := if_neg (ne_zero_of_pos he)

lemma effectiveEpsilon_of_zero (s : Scorer) (he : (e == 0.0) = true) :
    { s with epsilon := e }.effectiveEpsilon = defaultEpsilon := if_pos he

/-- Of the strength that is asked for a score knows only the one that is used. -/
lemma score_eq_of_effectiveEpsilon (s : Scorer) (v : ComplexityVector) (t : ModuleType)
    (h : { s with epsilon := e }.effectiveEpsilon = { s with epsilon := e' }.effectiveEpsilon) :
    { s with epsilon := e }.score v t = { s with epsilon := e' }.score v t := by
  unfold score regularization
  rw [h]
  rfl

/-- A zero stands for the usual strength. -/
lemma score_of_zero (s : Scorer) (v : ComplexityVector) (t : ModuleType) (he : (e == 0.0) = true) :
    { s with epsilon := e }.score v t = { s with epsilon := 2.0 }.score v t :=
  score_eq_of_effectiveEpsilon s v t
    ((effectiveEpsilon_of_zero s he).trans (effectiveEpsilon_of_pos s (by decide)).symm)

/-- A greater strength adds no less. -/
lemma below_regularization_of_le (s : Scorer) (v : ComplexityVector) (he : 0.0 < e) (h : e ≤ e') :
    Below ({ s with epsilon := e }.regularization v)
      ({ s with epsilon := e' }.regularization v) := by
  have hnorm := Below.refl v.value_norm_nonneg
  have hscale : Below 0.01 0.01 := .refl (nonneg_of_le (by decide))
  rw [regularization, regularization, effectiveEpsilon_of_pos s he,
    effectiveEpsilon_of_pos s (pos_of_pos_of_le he h)]
  exact ((below_of_le (zero_le_of_lt he) h).mul (hnorm.mul hnorm)).mul hscale

/-- **Greater strengths give no smaller scores**, and change nothing else. Of two positive strengths
in order the greater one never has the smaller regularised score, and the scores differ in nothing
but the strength, the regularization and the regularised score. A zero of either sign gives the
score of the usual strength. All this holds for any tables and weights and for any vector. -/
theorem score_mono_epsilon (s : Scorer) (v : ComplexityVector) (t : ModuleType) :
    (∀ e e' : Float, 0.0 < e → e ≤ e' →
      let lower := { s with epsilon := e }.score v t
      let higher := { s with epsilon := e' }.score v t
      ¬higher.regularized < lower.regularized ∧
      higher = { lower with
        epsilon := e', regularization := higher.regularization,
        regularized := higher.regularized }) ∧
    { s with epsilon := 0.0 }.score v t = { s with epsilon := 2.0 }.score v t ∧
    { s with epsilon := -0.0 }.score v t = { s with epsilon := 2.0 }.score v t := by
  refine ⟨fun e e' he h => ⟨?order, ?frame⟩, ?zero, ?negativeZero⟩
  case order =>
    have hsum := value_add_mono_of_below (s.linear v + s.quadratic v t)
      (below_regularization_of_le s v he h)
    have hrounded := Rounding.exact_two.value_toPlaces_mono hsum
    exact fun hlt => (lt_iff.1 hlt).2.2.not_ge hrounded
  case frame =>
    have hused := effectiveEpsilon_of_pos s (pos_of_pos_of_le he h)
    simp only [score, hused]
    rfl
  case zero => exact score_of_zero s v t (by decide)
  case negativeZero => exact score_of_zero s v t (by decide)

/-- Of two strengths for a vector with components below zero. -/
theorem score_mono_epsilon_negative :
    let s := Scorer.ofRegistry .shipped
    let v : ComplexityVector := ⟨-3.0, 1.0, -2.0, 0.5, 4.0⟩
    (0.0 : Float) < 1.0 ∧ (1.0 : Float) ≤ 5.0 ∧
      ¬({ s with epsilon := 5.0 }.score v .api).regularized <
        ({ s with epsilon := 1.0 }.score v .api).regularized :=
  ⟨by decide, by decide, ((score_mono_epsilon (.ofRegistry .shipped) ⟨-3.0, 1.0, -2.0, 0.5, 4.0⟩
    .api).1 1.0 5.0 (by decide) (by decide)).1⟩

end Scorer

end CodeComplexity
