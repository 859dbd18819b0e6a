import CodeComplexity.Proofs.Centroid
import CodeComplexity.Proofs.Deviation.Magnitude
import CodeComplexity.Proofs.Engine.Analysis
import CodeComplexity.Proofs.Numbers
import CodeComplexity.Proofs.Score
import CodeComplexity.Proofs.Verdict

/-!
Where a report holds no number.

Large components run off the range, and what comes of infinities need not be a number: they cancel
in a sum, vanish in a product with zero and have no quotient. Most parts of a report are built so
that none of this happens to them, whatever the vector. The others are gone through here one by
one, down to the operation that fails.
-/

namespace CodeComplexity

open Double

def ComplexityVector.FiniteNonneg (v : ComplexityVector) : Prop :=
  ∀ d, (v.get d).isFinite ∧ 0.0 ≤ v.get d

lemma ComplexityVector.FiniteNonneg.not_isNaN {v : ComplexityVector} (hv : v.FiniteNonneg) :
    ∀ x ∈ v.toList, x.isNaN = false := by
  simp only [PerDimension.toList, List.forall_mem_map]
  exact fun d _ => not_isNaN_of_isFinite (hv d).1

/-! ### Sums over the dimensions -/

section Vectors

variable {v w : ComplexityVector} {m : InteractionMatrix Float}

lemma zero_le_total (h : ∀ d, 0.0 ≤ v.get d) : 0.0 ≤ v.total :=
  zero_le_add (zero_le_add (zero_le_add (zero_le_add (h .control) (h .nesting)) (h .state))
    (h .async)) (h .coupling)

lemma zero_le_product {d : Dimension} (hv : v.FiniteNonneg) (hw : w.FiniteNonneg) :
    0.0 ≤ v.get d * w.get d :=
  zero_le_mul (hv d).2 (hw d).2 (approximates_mul (hv d).1 (hw d).1).not_isNaN

lemma zero_le_dot (hv : v.FiniteNonneg) (hw : w.FiniteNonneg) : 0.0 ≤ v.dot w :=
  zero_le_foldl Dimension.all fun d => by
    rw [PerDimension.get_zipWith]
    exact zero_le_product hv hw

/-- Squares are not below zero, whatever the components. -/
lemma zero_le_norm (h : ∀ d, (v.get d).isNaN = false) : 0.0 ≤ v.norm :=
  zero_le_sqrt <| zero_le_foldl Dimension.all fun d => by
    rw [PerDimension.get_zipWith]
    exact zero_le_mul_self (h d)

/-- A quadratic form of what is not below zero fails exactly where a product has run off the range
and is then multiplied by zero. -/
theorem isNaN_quadraticForm_iff (hv : v.FiniteNonneg)
    (hm : ∀ i j, (m.entry i j).isFinite ∧ 0.0 ≤ m.entry i j) :
    (m.quadraticForm v).isNaN = true ↔
      ∃ i j, (v.get i * m.entry i j).isInf = true ∧ (v.get j == 0.0) = true := by
  have hproduct (i j : Dimension) : 0.0 ≤ v.get i * m.entry i j :=
    zero_le_mul (hv i).2 (hm i j).2 (approximates_mul (hv i).1 (hm i j).1).not_isNaN
  have hterm (i j : Dimension) : (v.get i * m.entry i j * v.get j).isNaN = true ↔
      (v.get i * m.entry i j).isInf = true ∧ (v.get j == 0.0) = true := by
    rw [isNaN_mul_iff (not_isNaN_of_zero_le (hproduct i j)) (not_isNaN_of_isFinite (hv j).1)]
    simp [not_isInf_of_isFinite (hv j).1]
  rw [InteractionMatrix.quadraticForm, isNaN_foldl_iff _ (fun p => ?_) le_rfl]
  · simp only [hterm, InteractionMatrix.mem_places, true_and, Prod.exists]
    exact or_iff_right (by decide)
  · exact ((Below.refl (nonneg_of_le (hproduct p.1 p.2))).mul
      (.refl (nonneg_of_le (hv p.2).2))).nonneg

lemma isNaN_interactionDistance_iff :
    (v.interactionDistance w m).isNaN = true ↔ (m.quadraticForm (v - w)).isNaN = true := by
  refine ⟨fun h => ?_, fun h => isNaN_sqrt_of_isNaN (isNaN_abs_of_isNaN h)⟩
  by_contra hnumber
  have := not_isNaN_of_zero_le (zero_le_sqrt (zero_le_abs (Bool.eq_false_of_not_eq_true hnumber)))
  exact Bool.noConfusion (h.symm.trans this)

/-- A distance that is a number is not below zero. -/
lemma zero_le_interactionDistance (h : (v.interactionDistance w m).isNaN = false) :
    0.0 ≤ v.interactionDistance w m := by
  rw [← Bool.not_eq_true, isNaN_interactionDistance_iff, Bool.not_eq_true] at h
  exact zero_le_sqrt (zero_le_abs h)

end Vectors

/-! ### Deviation and best fit -/

lemma not_isNaN_atMostOne (x : Float) : (Deviation.atMostOne x).isNaN = false := by
  unfold Deviation.atMostOne
  split_ifs with h
  exacts [(lt_iff.1 h).1, rfl]

section Profiles

variable {r : Registry} {v : ComplexityVector} {t : ModuleType}
  (hr : r.validate = .ok ()) (hv : v.FiniteNonneg)

include hr hv

lemma not_isNaN_offset (d : Dimension) : ((v - (r.profile t).centroid).get d).isNaN = false := by
  rw [PerDimension.get_sub, Profile.centroid, PerDimension.get_map]
  exact not_isNaN_sub (hv d).1 (Interval.not_isNaN_midpoint (Registry.isProper_of_validate hr t d))

/-- In a deviation only the distance by interactions can fail. -/
lemma Deviation.numbers_iff : (∀ x ∈ (ofVector r v t).numbers, x.isNaN = false) ↔
    (BestFit.distanceTo r v t).isNaN = false := by
  have hoffset := not_isNaN_offset hr hv (t := t)
  have heuclidean : (v.euclideanDistance (r.profile t).centroid).isNaN = false :=
    not_isNaN_of_zero_le (zero_le_norm hoffset)
  have hlargest := not_isNaN_of_zero_le (zero_le_largestMagnitude (v - (r.profile t).centroid))
  simp only [numbers, ofVector, List.forall_mem_append, List.forall_mem_cons, List.not_mem_nil,
    Rounding.exact_three.isNaN_toPlaces, heuclidean, hlargest, not_isNaN_atMostOne, true_and]
  exact ⟨fun h => h.1.1, fun h => ⟨⟨h, by simp⟩, hv.not_isNaN⟩⟩

end Profiles

/-- The confidence is one over at least one, if there is a distance. -/
lemma BestFit.confidence_mem {r : Registry} {v : ComplexityVector}
    (h : (distanceTo r v (ofVector r v).moduleType).isNaN = false) :
    0.0 ≤ (ofVector r v).confidence ∧ (ofVector r v).confidence ≤ 1.0 := by
  have hdistance : 0.0 ≤ (ofVector r v).distance :=
    Rounding.exact_three.zero_le_toPlaces (zero_le_interactionDistance h)
  have hle := (le_add (x := 1.0) (by decide) hdistance).1
  obtain ⟨h0, h1⟩ := share_mem (by decide) rfl hle (pos_of_pos_of_le (by decide) hle)
  exact ⟨Rounding.exact_three.zero_le_toPlaces h0, Rounding.toPlaces_three_le_one h1⟩

lemma BestFit.numbers_iff {r : Registry} {v : ComplexityVector} :
    (∀ x ∈ (ofVector r v).numbers, x.isNaN = false) ↔
      (distanceTo r v (ofVector r v).moduleType).isNaN = false := by
  simp only [numbers, List.forall_mem_cons]
  refine ⟨fun h => ?_, fun h => ⟨?_, not_isNaN_of_zero_le (confidence_mem h).1, by simp⟩⟩
  · exact (Rounding.exact_three.isNaN_toPlaces _).symm.trans h.1
  · exact (Rounding.exact_three.isNaN_toPlaces _).trans h

/-! ### Decomposition -/

section Share

variable {a b : Float} (ha : 0.0 ≤ a) (hb : 0.0 ≤ b)

include ha hb

lemma share_of_sum_mem (hfinite : b.isFinite) :
    let q := if 0.0 < a + b then b / (a + b) else 0.0
    0.0 ≤ q ∧ q ≤ 1.0 := by
  intro q
  by_cases h : 0.0 < a + b
  · rw [show q = b / (a + b) from if_pos h]
    exact share_mem hb hfinite (le_add ha hb).2 h
  · rw [show q = 0.0 from if_neg h]
    decide

/-- An infinite part makes the whole infinite. -/
lemma isNaN_share_of_sum_iff :
    (if 0.0 < a + b then b / (a + b) else 0.0).isNaN = false ↔ b.isFinite := by
  refine ⟨fun h => ?_, fun h => not_isNaN_of_zero_le (share_of_sum_mem ha hb h).1⟩
  refine isFinite_of_not_isInf (not_isNaN_of_zero_le hb) fun hinf => ?_
  have htop := (isInf_iff_value hb).1 hinf
  have hsum : value (a + b) = ⊤ := top_le_iff.1 (htop ▸ (le_iff.1 (le_add ha hb).2).2.2)
  have hpos : 0.0 < a + b := by
    rw [lt_iff_value rfl (not_isNaN_of_zero_le (zero_le_add ha hb)), hsum]
    exact EReal.coe_lt_top 0
  rw [if_pos hpos, ← Bool.not_eq_true, isNaN_div_iff (not_isNaN_of_zero_le hb) hpos] at h
  exact h ⟨hinf, (isInf_iff_value (zero_le_add ha hb)).2 hsum⟩

end Share

section Decomposition

variable {v w : ComplexityVector} (hv : v.FiniteNonneg) (hw : w.FiniteNonneg)

include hv hw

lemma zero_le_parts :
    0.0 ≤ v.control * w.control + v.nesting * w.nesting ∧
    0.0 ≤ v.state * w.state + v.coupling * w.coupling ∧ 0.0 ≤ v.async * w.async := by
  have h (d : Dimension) : 0.0 ≤ v.get d * w.get d := zero_le_product hv hw
  exact ⟨zero_le_add (h .control) (h .nesting), zero_le_add (h .state) (h .coupling), h .async⟩

/-- In a decomposition only the share can fail. -/
lemma Decomposition.numbers_iff :
    (∀ x ∈ (ofVector v w).numbers, x.isNaN = false) ↔ (v.async * w.async).isFinite := by
  obtain ⟨halgorithmic, harchitectural, hbalanced⟩ := zero_le_parts hv hw
  have hrest := zero_le_add halgorithmic harchitectural
  have htotal := zero_le_add hrest hbalanced
  rw [← isNaN_share_of_sum_iff hrest hbalanced]
  simp only [numbers, ofVector, List.forall_mem_cons, Rounding.exact_two.isNaN_toPlaces,
    Rounding.exact_three.isNaN_toPlaces, not_isNaN_of_zero_le halgorithmic,
    not_isNaN_of_zero_le harchitectural, not_isNaN_of_zero_le hbalanced,
    not_isNaN_of_zero_le htotal, true_and]
  simp

lemma Decomposition.balanceRatio_mem (h : (v.async * w.async).isFinite) :
    0.0 ≤ (ofVector v w).balanceRatio ∧ (ofVector v w).balanceRatio ≤ 1.0 := by
  obtain ⟨halgorithmic, harchitectural, hbalanced⟩ := zero_le_parts hv hw
  obtain ⟨h0, h1⟩ := share_of_sum_mem (zero_le_add halgorithmic harchitectural) hbalanced h
  exact ⟨Rounding.exact_three.zero_le_toPlaces h0, Rounding.toPlaces_three_le_one h1⟩

end Decomposition

/-! ### Scores -/

lemma not_isNaN_upperSum {p : Profile} (hp : ∀ d, (p.get d).isProper = true) :
    p.upperSum.isNaN = false := by
  have h (d : Dimension) : ((p.map Interval.max).get d).isFinite := by
    rw [PerDimension.get_map]
    exact (Interval.isProper_eq_true.1 (hp d)).2.1
  exact not_isNaN_add (not_isNaN_add (not_isNaN_add (not_isNaN_add
    (not_isNaN_of_isFinite (h .control)) (h .nesting)) (h .state)) (h .async)) (h .coupling)

section Scorer

variable {s : Scorer} {v : ComplexityVector} {t : ModuleType}
  (hr : s.registry.validate = .ok ()) (hw : s.weights.FiniteNonneg)
  (he : s.effectiveEpsilon.isFinite) (he0 : 0.0 < s.effectiveEpsilon) (hv : v.FiniteNonneg)

lemma Scorer.isNaN_rawSumRatio_iff (h : 0.0 ≤ v.total) : (s.rawSumRatio v t).isNaN = true ↔
    v.total.isInf = true ∧ (s.registry.rawSumLimit t).isInf = true ∧
      0.0 < s.registry.rawSumLimit t := by
  unfold Scorer.rawSumRatio
  by_cases hlimit : 0.0 < s.registry.rawSumLimit t
  · simp only [hlimit, if_true, isNaN_div_iff (not_isNaN_of_zero_le h) hlimit, and_true]
  · simp only [hlimit, if_false, and_false, iff_false]
    exact Bool.false_ne_true

include he he0 hv

lemma Scorer.zero_le_regularization : 0.0 ≤ s.regularization v :=
  zero_le_mul_right (zero_le_mul_left (zero_le_mul_self (not_isNaN_of_zero_le
    (zero_le_norm fun d => not_isNaN_of_isFinite (hv d).1))) he he0) rfl (by decide)

include hr hw

lemma TensorScore.numbers_iff : (∀ x ∈ (s.score v t).numbers, x.isNaN = false) ↔
    ((s.registry.matrix t).quadraticForm v).isNaN = false ∧
    ¬((s.quadratic v t).isInf = true ∧ s.quadratic v t < 0.0 ∧
      ((s.linear v).isInf = true ∨ (s.regularization v).isInf = true)) ∧
    ¬(v.total.isInf = true ∧ (s.registry.rawSumLimit t).isInf = true ∧
      0.0 < s.registry.rawSumLimit t) := by
  have hlinear : 0.0 ≤ s.linear v := zero_le_dot hv hw
  have hregularization : 0.0 ≤ s.regularization v := Scorer.zero_le_regularization he he0 hv
  have htotal : 0.0 ≤ v.total := zero_le_total fun d => (hv d).2
  have hlimit : (s.registry.rawSumLimit t).isNaN = false :=
    not_isNaN_upperSum (Registry.isProper_of_validate hr t)
  have hform : (s.quadratic v t).isNaN = ((s.registry.matrix t).quadraticForm v).isNaN :=
    isNaN_mul_right rfl (by decide)
  rw [← Scorer.isNaN_rawSumRatio_iff htotal, Bool.not_eq_true]
  simp only [numbers, Scorer.score, List.forall_mem_append, List.forall_mem_cons,
    Rounding.exact_two.isNaN_toPlaces, Rounding.exact_three.isNaN_toPlaces,
    not_isNaN_of_zero_le hlinear, not_isNaN_of_zero_le hregularization, not_isNaN_of_zero_le htotal,
    hlimit, not_isNaN_of_isFinite he, hform, true_and]
  have hparts (hquadratic : (s.quadratic v t).isNaN = false) :
      (s.linear v + s.quadratic v t).isNaN = false ∧
        (s.linear v + s.quadratic v t + s.regularization v).isNaN = false ↔
      ¬((s.quadratic v t).isInf = true ∧ s.quadratic v t < 0.0 ∧
        ((s.linear v).isInf = true ∨ (s.regularization v).isInf = true)) := by
    rw [sum_number_iff hlinear hquadratic hregularization, value_eq_bot_iff_lt,
      isInf_iff_value hlinear, isInf_iff_value hregularization, and_assoc]
  constructor
  · rintro ⟨⟨hquadratic, hraw, hregularized, hratio, -⟩, -⟩
    exact ⟨hquadratic, (hparts (hform.trans hquadratic)).1 ⟨hraw, hregularized⟩, hratio⟩
  · rintro ⟨hquadratic, h, hratio⟩
    obtain ⟨hraw, hregularized⟩ := (hparts (hform.trans hquadratic)).2 h
    exact ⟨⟨hquadratic, hraw, hregularized, hratio, by simp⟩, hv.not_isNaN⟩

end Scorer

/-! ### Moderate numbers -/

lemma within_of_moderate {x : Float} (h : x.abs ≤ 1e90) : Within 300 x :=
  within_of_abs_le h (within_of_fits (by decide +kernel))

lemma within_quadraticForm {m : InteractionMatrix Float} {w : ComplexityVector}
    (hm : ∀ i j, (m.entry i j).abs ≤ 1e90) (hw : ∀ d, Within 302 (w.get d)) :
    Within 929 (m.quadraticForm w) :=
  Within.foldl (k := 904) InteractionMatrix.places (within_of_fits (by decide))
    (fun p => ((hw p.1).mul (within_of_moderate (hm p.1 p.2)) (by decide)).mul (hw p.2) (by decide))
    (by decide)

lemma BestFit.not_isNaN_distanceTo {r : Registry} {v : ComplexityVector} {t : ModuleType}
    (hm : ∀ i j, ((r.matrix t).entry i j).abs ≤ 1e90)
    (hp : ∀ d, ((r.profile t).get d).min.abs ≤ 1e90 ∧ ((r.profile t).get d).max.abs ≤ 1e90)
    (hv : ∀ d, (v.get d).abs ≤ 1e90) : (distanceTo r v t).isNaN = false := by
  have hform : Within 929 ((r.matrix t).quadraticForm (v - (r.profile t).centroid)) := by
    refine within_quadraticForm hm fun d => ?_
    obtain ⟨hmin, hmax⟩ := hp d
    rw [PerDimension.get_sub, Profile.centroid, PerDimension.get_map]
    refine ((within_of_moderate (hv d)).mono (by decide)).sub ?_ (by decide)
    exact ((within_of_moderate hmin).add (within_of_moderate hmax) (by decide)).div (l := 0) rfl
      (by rw [real_two]; norm_num) (by decide)
  rw [← Bool.not_eq_true, distanceTo, isNaN_interactionDistance_iff,
    not_isNaN_of_isFinite hform.finite]
  exact Bool.false_ne_true

/-! ### Reports -/

namespace Engine

variable {e : Engine}

/-- What keeps every number of a report a number: neither the quadratic form of the score nor those
of the two distances fail; the quadratic part of the score is not infinitely far below zero next to
another infinite part; the raw sum and its limit are not both infinite; and the share of async in
the weighted score has a finite dividend. -/
structure Settled (e : Engine) (v : ComplexityVector) (t : ModuleType) : Prop where
  form : ((e.registry.matrix t).quadraticForm v).isNaN = false
  parts : ¬((e.scorer.quadratic v t).isInf = true ∧ e.scorer.quadratic v t < 0.0 ∧
    ((e.scorer.linear v).isInf = true ∨ (e.scorer.regularization v).isInf = true))
  ratio : ¬(v.total.isInf = true ∧ (e.registry.rawSumLimit t).isInf = true ∧
    0.0 < e.registry.rawSumLimit t)
  own : (BestFit.distanceTo e.registry v t).isNaN = false
  nearest : (BestFit.distanceTo e.registry v (e.bestFit v).moduleType).isNaN = false
  share : (v.async * e.weights.async).isFinite

/-- No number that an engine holds is far out. -/
structure Moderate (e : Engine) : Prop where
  weights : ∀ d, (e.weights.get d).abs ≤ 1e90
  matrices : ∀ t i j, ((e.registry.matrix t).entry i j).abs ≤ 1e90
  profiles : ∀ t d, ((e.registry.profile t).get d).min.abs ≤ 1e90 ∧
    ((e.registry.profile t).get d).max.abs ≤ 1e90

lemma numbers_iff_settled (he : e.Built) {u : CodeUnit} (hu : u.vector.FiniteNonneg) :
    (∀ x ∈ (e.analyze u).numbers, x.isNaN = false) ↔
      e.Settled u.vector (e.analyze u).moduleType := by
  obtain ⟨hepsilon, hepsilon0⟩ := he.effectiveEpsilon_pos
  have htensor := TensorScore.numbers_iff (s := e.scorer) (t := (e.analyze u).moduleType)
    he.validate he.weights_spec hepsilon hepsilon0 hu
  have hdeviation := Deviation.numbers_iff he.validate hu (t := (e.analyze u).moduleType)
  have hbestFit := BestFit.numbers_iff (r := e.registry) (v := u.vector)
  have hdecomposition := Decomposition.numbers_iff hu he.weights_spec
  change (∀ x ∈ (e.scorer.score u.vector (e.analyze u).moduleType).numbers ++
    (BestFit.ofVector e.registry u.vector).numbers ++
    (Deviation.ofVector e.registry u.vector (e.analyze u).moduleType).numbers ++
    (Decomposition.ofVector u.vector e.weights).numbers, x.isNaN = false) ↔ _
  simp only [List.forall_mem_append, htensor, hdeviation, hbestFit, hdecomposition]
  constructor
  · rintro ⟨⟨⟨⟨hform, hparts, hratio⟩, hnearest⟩, hown⟩, hshare⟩
    exact ⟨hform, hparts, hratio, hown, hnearest, hshare⟩
  · rintro ⟨hform, hparts, hratio, hown, hnearest, hshare⟩
    exact ⟨⟨⟨⟨hform, hparts, hratio⟩, hnearest⟩, hown⟩, hshare⟩

section Moderate

variable (h : e.Moderate) {v : ComplexityVector} (hv : ∀ d, (v.get d).abs ≤ 1e90)

include h hv

/-- With three hundred binary digits in front of the point the largest terms, products of three
numbers, stay well inside the range. -/
lemma settled_of_moderate (t : ModuleType) : e.Settled v t := by
  have hform : Within 929 ((e.registry.matrix t).quadraticForm v) :=
    within_quadraticForm (h.matrices t) fun d => (within_of_moderate (hv d)).mono (by decide)
  have hquadratic : Within (929 + 0) (e.scorer.quadratic v t) :=
    hform.mul (within_of_fits (by decide +kernel)) (by decide)
  have hcomponent (d : Dimension) (k : ℕ) : Within (300 + k) (v.get d) :=
    (within_of_moderate (hv d)).mono (by omega)
  have htotal : Within 304 v.total :=
    ((((hcomponent .control 0).add (hcomponent .nesting 0) (by decide)).add
      (hcomponent .state 1) (by decide)).add (hcomponent .async 2) (by decide)).add
      (hcomponent .coupling 3) (by decide)
  have hshare : Within 600 (v.async * e.weights.async) :=
    (hcomponent .async 0).mul (within_of_moderate (h.weights .async)) (by decide)
  exact {
    form := not_isNaN_of_isFinite hform.finite
    parts := fun hparts => not_isInf_of_isFinite hquadratic.finite hparts.1
    ratio := fun hratio => not_isInf_of_isFinite htotal.finite hratio.1
    own := BestFit.not_isNaN_distanceTo (h.matrices _) (h.profiles _) hv
    nearest := BestFit.not_isNaN_distanceTo (h.matrices _) (h.profiles _) hv
    share := hshare.finite }

end Moderate

/-- **When a report holds numbers only.** For a finite vector that is nowhere below zero, no number
of the score, the best fit, the deviation and the decomposition fails to be one exactly if the
vector is settled. Then the share of async and the confidence lie between zero and one, and exactly
one of the three judgements holds of the score. A vector is settled if neither it nor the engine
holds a number beyond `1e90`. Under a matrix with no entry below zero the quadratic form, and with
it the score, fails exactly where a product that has run off the range meets a component of zero. -/
theorem report_numbers (e : Engine) (he : e.Built) (u : CodeUnit) (hu : u.vector.FiniteNonneg) :
    let r := e.analyze u
    ((∀ x ∈ r.numbers, x.isNaN = false) ↔ e.Settled u.vector r.moduleType) ∧
    (e.Settled u.vector r.moduleType →
      (0.0 ≤ r.decomposition.balanceRatio ∧ r.decomposition.balanceRatio ≤ 1.0) ∧
      (0.0 ≤ r.bestFit.confidence ∧ r.bestFit.confidence ≤ 1.0) ∧
      [r.tensor.isSafe, r.tensor.needsReview, r.tensor.isViolation].count true = 1) ∧
    (e.Moderate → (∀ d, (u.vector.get d).abs ≤ 1e90) → e.Settled u.vector r.moduleType) ∧
    ((∀ i j, 0.0 ≤ (e.registry.matrix r.moduleType).entry i j) →
      (((e.registry.matrix r.moduleType).quadraticForm u.vector).isNaN = true ↔
        ∃ i j, (u.vector.get i * (e.registry.matrix r.moduleType).entry i j).isInf = true ∧
          (u.vector.get j == 0.0) = true)) := by
  intro r
  have hnumbers := numbers_iff_settled he hu
  refine ⟨hnumbers, fun h => ⟨?share, BestFit.confidence_mem h.nearest, ?judgements⟩,
    fun hm hv => settled_of_moderate hm hv _, fun hm => ?form⟩
  case share => exact Decomposition.balanceRatio_mem hu he.weights_spec h.share
  case judgements =>
    have hmem : r.tensor.regularized ∈ r.numbers := by
      simp [UnitReport.numbers, TensorScore.numbers]
    exact TensorScore.count_ranges (hnumbers.2 h _ hmem)
  case form =>
    exact isNaN_quadraticForm_iff hu fun i j =>
      ⟨Registry.isFinite_entry he.validate r.moduleType i j, hm i j⟩

lemma moderate_shipped : shipped.Moderate := by
  have hregistry : ∀ t ∈ ModuleType.all,
      (∀ i ∈ Dimension.all, ∀ j ∈ Dimension.all, (t.shippedMatrix.entry i j).abs ≤ 1e90) ∧
      ∀ d ∈ Dimension.all, (t.shippedProfile.get d).min.abs ≤ 1e90 ∧
        (t.shippedProfile.get d).max.abs ≤ 1e90 := by
    decide +kernel
  have hweights : ∀ d ∈ Dimension.all, (shipped.weights.get d).abs ≤ 1e90 := by decide +kernel
  exact {
    weights := fun d => hweights d d.mem_all
    matrices := fun t i j => (hregistry t t.mem_all).1 i i.mem_all j j.mem_all
    profiles := fun t d => (hregistry t t.mem_all).2 d d.mem_all }

/-- The largest vector of moderate numbers. -/
theorem report_numbers_large :
    let u : CodeUnit := ⟨none, .const 1e90, .api, none, false⟩
    shipped.Built ∧ u.vector.FiniteNonneg ∧ shipped.Moderate ∧
      (∀ d, (u.vector.get d).abs ≤ 1e90) ∧
      (∀ x ∈ (shipped.analyze u).numbers, x.isNaN = false) ∧
      [(shipped.analyze u).tensor.isSafe, (shipped.analyze u).tensor.needsReview,
        (shipped.analyze u).tensor.isViolation].count true = 1 := by
  intro u
  have hu : u.vector.FiniteNonneg := fun d => by
    rw [PerDimension.get_const]
    decide +kernel
  have hmoderate (d : Dimension) : (u.vector.get d).abs ≤ 1e90 := by
    rw [PerDimension.get_const]
    decide +kernel
  obtain ⟨hnumbers, hranges, hsettled, -⟩ := report_numbers shipped (.inl rfl) u hu
  have h := hsettled moderate_shipped hmoderate
  exact ⟨.inl rfl, hu, moderate_shipped, hmoderate, hnumbers.2 h, (hranges h).2.2⟩

/-- Reports with what is no number: a share of infinities, and a score that is in none of the
three ranges. -/
theorem report_not_numbers :
    (let u : CodeUnit := ⟨none, ⟨20.0, 20.0, 20.0, 1e308, 20.0⟩, .api, none, false⟩
     u.vector.FiniteNonneg ∧ (shipped.analyze u).decomposition.balanceRatio.isNaN = true) ∧
    let u : CodeUnit := ⟨none, ⟨0.0, 0.0, 1.7e308, 0.0, 0.0⟩, .api, none, false⟩
    u.vector.FiniteNonneg ∧ (shipped.analyze u).tensor.regularized.isNaN = true ∧
      (shipped.analyze u).tensor.isSafe = false ∧
      (shipped.analyze u).tensor.needsReview = false ∧
      (shipped.analyze u).tensor.isViolation = false := by
  refine ⟨⟨fun d => by cases d <;> decide +kernel, ?_⟩, fun d => by cases d <;> decide +kernel, ?_⟩
  · change (Decomposition.ofVector _ _).balanceRatio.isNaN = true
    decide +kernel
  · rw [analyze_eq, resolve_of_isKnown rfl]
    change (shipped.score _ .api).regularized.isNaN = true ∧
      (shipped.score _ .api).isSafe = false ∧ (shipped.score _ .api).needsReview = false ∧
      (shipped.score _ .api).isViolation = false
    decide +kernel

end Engine

end CodeComplexity
