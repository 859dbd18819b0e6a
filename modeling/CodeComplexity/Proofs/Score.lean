import CodeComplexity.Proofs.Engine.Construction
import CodeComplexity.Proofs.Rounding

/-!
Scores of vectors in order.

Every step from a vector to its level and its zone is monotone on doubles that are not below zero:
sums, products, the root, scaling, rounding to places and the classification by upper limits. So
what is larger in each dimension is never judged to be less of a risk, overflow included.
-/

namespace CodeComplexity

open Double

/-! ### Classification -/

lemma Level.ofScore_mono {x y : Float} (h : Below x y) : Level.ofScore x ≤ Level.ofScore y := by
  unfold Level.ofScore
  refine ite_lt_mono h.le (by decide) (by split_ifs <;> decide) ?_
  refine ite_lt_mono h.le (by decide) (by split_ifs <;> decide) ?_
  refine ite_lt_mono h.le (by decide) (by split_ifs <;> decide) ?_
  exact ite_lt_mono h.le (by decide) (by decide) (by decide)

lemma Zone.ofRatio_mono {x y : Float} (h : Below x y) : Zone.ofRatio x ≤ Zone.ofRatio y := by
  unfold Zone.ofRatio
  refine ite_lt_mono h.le (by decide) (by split_ifs <;> decide) ?_
  exact ite_lt_mono h.le (by decide) (by decide) (by decide)

/-! ### Sums over the dimensions -/

section Vectors

variable {v w v' w' : ComplexityVector} (h : ∀ d, Below (v.get d) (w.get d))

include h

lemma below_sum : Below v.sum w.sum := below_foldl Dimension.all h

lemma below_total : Below v.total w.total :=
  ((((h .control).add (h .nesting)).add (h .state)).add (h .async)).add (h .coupling)

lemma below_dot (h' : ∀ d, Below (v'.get d) (w'.get d)) : Below (v.dot v') (w.dot w') := by
  unfold PerDimension.dot
  refine below_sum fun d => ?_
  rw [PerDimension.get_zipWith, PerDimension.get_zipWith]
  exact (h d).mul (h' d)

lemma below_norm : Below v.norm w.norm := by
  unfold ComplexityVector.norm PerDimension.normSq
  exact (below_dot h h).sqrt

lemma below_quadraticForm {m : InteractionMatrix Float} (hm : ∀ i j, 0 ≤ value (m.entry i j)) :
    Below (m.quadraticForm v) (m.quadraticForm w) :=
  below_foldl InteractionMatrix.places fun p => ((h p.1).mul (.refl (hm p.1 p.2))).mul (h p.2)

end Vectors

/-! ### Scores -/

namespace Scorer

variable {s : Scorer} {t : ModuleType} {v w : ComplexityVector}
  (h : ∀ d, Below (v.get d) (w.get d))

include h

lemma below_rawSumRatio : Below (s.rawSumRatio v t) (s.rawSumRatio w t) := by
  dsimp only [rawSumRatio]
  split_ifs with hlimit
  · exact (below_total h).div hlimit
  · exact .refl le_rfl

lemma below_linear (hw : ∀ d, 0 ≤ value (s.weights.get d)) : Below (s.linear v) (s.linear w) :=
  below_dot h fun d => .refl (hw d)

lemma below_quadratic (hm : ∀ i j, 0 ≤ value ((s.registry.matrix t).entry i j)) :
    Below (s.quadratic v t) (s.quadratic w t) :=
  (below_quadraticForm h hm).mul (.refl (nonneg_of_le (by decide)))

lemma below_regularization (hs : 0 ≤ value s.effectiveEpsilon) :
    Below (s.regularization v) (s.regularization w) :=
  ((Below.refl hs).mul ((below_norm h).mul (below_norm h))).mul (.refl (nonneg_of_le (by decide)))

lemma zone_mono : (s.score v t).zone ≤ (s.score w t).zone :=
  Zone.ofRatio_mono (Rounding.exact_three.below_toPlaces (below_rawSumRatio h))

lemma below_regularized (hs : 0 ≤ value s.effectiveEpsilon) (hw : ∀ d, 0 ≤ value (s.weights.get d))
    (hm : ∀ i j, 0 ≤ value ((s.registry.matrix t).entry i j)) :
    Below (s.score v t).regularized (s.score w t).regularized :=
  Rounding.exact_two.below_toPlaces
    (((below_linear h hw).add (below_quadratic h hm)).add (below_regularization h hs))

end Scorer

namespace Engine

lemma Built.weights_spec {e : Engine} (he : e.Built) (d : Dimension) :
    (e.weights.get d).isFinite ∧ 0.0 ≤ e.weights.get d :=
  (Config.parameterFault?_eq_none.1 he.parameterFault?).2.2 d

lemma Built.weights_nonneg {e : Engine} (he : e.Built) (d : Dimension) :
    0 ≤ value (e.scorer.weights.get d) := nonneg_of_le (he.weights_spec d).2

/-- A strength of zero is not used, and no other one is below zero. -/
lemma Built.effectiveEpsilon_pos {e : Engine} (he : e.Built) :
    e.scorer.effectiveEpsilon.isFinite ∧ 0.0 < e.scorer.effectiveEpsilon := by
  obtain ⟨⟨hfinite, hnonneg⟩, -⟩ := Config.parameterFault?_eq_none.1 he.parameterFault?
  have hnumber := not_isNaN_of_isFinite hfinite
  unfold Scorer.effectiveEpsilon
  split_ifs with hzero
  · exact ⟨rfl, by decide⟩
  · have hne : value 0.0 ≠ value e.config.parameters.epsilon := fun h =>
      hzero ((beq_iff_value (y := 0.0) hnumber rfl).2 h.symm)
    refine ⟨hfinite, (lt_iff_value rfl hnumber).2 ?_⟩
    exact lt_of_le_of_ne (nonneg_of_le hnonneg) hne

lemma Built.effectiveEpsilon_nonneg {e : Engine} (he : e.Built) :
    0 ≤ value e.scorer.effectiveEpsilon := nonneg_of_lt he.effectiveEpsilon_pos.2

/-- **More complex is never judged less risky.** If a vector is at least another one in each
dimension, and neither is below zero, it has no lower zone under any module type; and under one
whose matrix has no entry below zero, as is so for every shipped one, it has no lower level and no
lower score. Components need not be finite. -/
theorem score_mono : (∀ (t : ModuleType) i j, 0.0 ≤ t.shippedMatrix.entry i j) ∧
    ∀ e : Engine, e.Built → ∀ (t : ModuleType) (v w : ComplexityVector),
      (∀ d, 0.0 ≤ v.get d) → (∀ d, v.get d ≤ w.get d) →
        (e.score v t).zone ≤ (e.score w t).zone ∧
        ((∀ i j, 0.0 ≤ (e.registry.matrix t).entry i j) →
          (e.score v t).level ≤ (e.score w t).level ∧
          ¬(e.score w t).regularized < (e.score v t).regularized) := by
  refine ⟨?shipped, fun e he t v w hv hle => ?_⟩
  case shipped =>
    intro t i j
    cases t <;> cases i <;> cases j <;> decide
  have h (d : Dimension) : Below (v.get d) (w.get d) := below_of_le (hv d) (hle d)
  refine ⟨Scorer.zone_mono h, fun hm => ?_⟩
  have hscore := Scorer.below_regularized (s := e.scorer) (t := t) h he.effectiveEpsilon_nonneg
    he.weights_nonneg fun i j => nonneg_of_le (hm i j)
  exact ⟨Level.ofScore_mono hscore, hscore.not_lt⟩

/-- Among others where the sums of the greater vector run off the range. -/
theorem score_mono_overflow :
    (shipped.score (.const 1.0) .api).level ≤ (shipped.score (.const 1e200) .api).level ∧
      ¬(shipped.score (.const 1e200) .api).regularized <
        (shipped.score (.const 1.0) .api).regularized :=
  (score_mono.2 shipped (.inl rfl) .api (.const 1.0) (.const 1e200)
    (fun d => by rw [PerDimension.get_const]; decide)
    (fun d => by rw [PerDimension.get_const, PerDimension.get_const]; decide +kernel)).2
    (score_mono.1 .api)

end Engine

end CodeComplexity
