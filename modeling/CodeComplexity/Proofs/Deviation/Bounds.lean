import CodeComplexity.Proofs.Deviation.Magnitude
import CodeComplexity.Proofs.Engine.Overflow

/-!
The ranges of what is reported about distances.

A distance is a root of a magnitude, so it is not below zero if it is a number. The scale of
deviations ends at one, where also the distance goes that is no number. The confidence in a fit
falls with the distance that is reported: it is computed from that one alone, by three operations
each of which keeps an order or turns it around.
-/

namespace CodeComplexity

open Double

namespace Deviation

/-- What is below one is kept, so that has to be not below zero. -/
lemma atMostOne_mem {x : Float} (h : x.isNaN = false → 0.0 ≤ x) :
    0.0 ≤ atMostOne x ∧ atMostOne x ≤ 1.0 := by
  unfold atMostOne
  split_ifs with hlt
  · obtain ⟨hnumber, -, hvalue⟩ := lt_iff.1 hlt
    exact ⟨h hnumber, (le_iff_value hnumber rfl).2 hvalue.le⟩
  · decide

lemma normalizedDeviation_mem (r : Registry) (v : ComplexityVector) (t : ModuleType) :
    0.0 ≤ (ofVector r v t).normalizedDeviation ∧ (ofVector r v t).normalizedDeviation ≤ 1.0 := by
  have hscale : 0.0 < normalizationScale := by decide
  obtain ⟨h0, h1⟩ := atMostOne_mem
    (x := v.interactionDistance (r.profile t).centroid (r.matrix t) / normalizationScale)
    fun hquot => by
      rw [isNaN_div_right rfl hscale] at hquot
      exact zero_le_div (zero_le_interactionDistance hquot) hscale
        ((isNaN_div_right rfl hscale).trans hquot)
  exact ⟨Rounding.exact_three.zero_le_toPlaces h0, Rounding.toPlaces_three_le_one h1⟩

end Deviation

namespace BestFit

variable {r q : Registry} {v w : ComplexityVector}

/-- The reported distance is a number exactly if the distance is. -/
lemma isNaN_distance : (ofVector r v).distance.isNaN =
    (distanceTo r v (ofVector r v).moduleType).isNaN := Rounding.exact_three.isNaN_toPlaces _

lemma zero_le_distance (h : (ofVector r v).distance.isNaN = false) :
    0.0 ≤ (ofVector r v).distance :=
  Rounding.exact_three.zero_le_toPlaces (zero_le_interactionDistance (isNaN_distance.symm.trans h))

lemma confidence_mem_of_distance (h : (ofVector r v).distance.isNaN = false) :
    0.0 ≤ (ofVector r v).confidence ∧ (ofVector r v).confidence ≤ 1.0 :=
  confidence_mem (isNaN_distance.symm.trans h)

/-- **Farther is no surer.** -/
theorem confidence_anti (h : (ofVector r v).distance ≤ (ofVector q w).distance) :
    (ofVector q w).confidence ≤ (ofVector r v).confidence := by
  obtain ⟨hnumber, hnumber', -⟩ := le_iff.1 h
  have hone : (0.0 : Float) ≤ 1.0 := by decide
  have h0 := zero_le_distance hnumber
  have hsum : 1.0 + (ofVector r v).distance ≤ 1.0 + (ofVector q w).distance := by
    rw [le_iff_value (not_isNaN_of_zero_le (zero_le_add hone h0))
      (not_isNaN_of_zero_le (zero_le_add hone (zero_le_distance hnumber')))]
    exact ((Below.refl (nonneg_of_le hone)).add (below_of_le h0 h)).le
  have hpos := pos_of_pos_of_le (x := 1.0) (by decide) (le_add hone h0).1
  rw [le_iff_value (not_isNaN_of_zero_le (confidence_mem_of_distance hnumber').1)
    (not_isNaN_of_zero_le (confidence_mem_of_distance hnumber).1)]
  exact Rounding.exact_three.value_toPlaces_mono (value_div_anti rfl hone hpos hsum)

end BestFit

/-- **The ranges of distances and what comes of them.** For every vector, whatever its components
are: the normalized deviation lies between zero and one; the largest deviation in a dimension is not
below zero, and of a finite vector and a finite centroid it is the rounded distance in the dimension
where they are farthest apart; and if the distance of the best fit is a number, it is not below
zero, the confidence lies between zero and one, and no fit that is reported to be farther away has a
larger one. -/
theorem Deviation.reported_ranges (r : Registry) (t : ModuleType) (v : ComplexityVector) :
    let a := Deviation.ofVector r v t
    let c := (r.profile t).centroid
    let fit := BestFit.ofVector r v
    (0.0 ≤ a.normalizedDeviation ∧ a.normalizedDeviation ≤ 1.0) ∧
    0.0 ≤ a.maxDimensionDeviation ∧
    ((∀ d, (v.get d).isFinite) → (∀ d, (c.get d).isFinite) → ∃ d,
      (∀ e, |real (v.get e) - real (c.get e)| ≤ |real (v.get d) - real (c.get d)|) ∧
      (∀ e, (v.get e - c.get e).abs ≤ (v.get d - c.get d).abs) ∧
      a.maxDimensionDeviation = Rounding.toPlaces (v.get d - c.get d).abs 3) ∧
    (fit.distance.isNaN = false →
      0.0 ≤ fit.distance ∧ (0.0 ≤ fit.confidence ∧ fit.confidence ≤ 1.0) ∧
      ∀ q w, fit.distance ≤ (BestFit.ofVector q w).distance →
        (BestFit.ofVector q w).confidence ≤ fit.confidence) :=
  ⟨normalizedDeviation_mem r v t,
    Rounding.exact_three.zero_le_toPlaces (zero_le_largestMagnitude _),
    exists_maxDimensionDeviation_eq r t, fun h => ⟨BestFit.zero_le_distance h,
      BestFit.confidence_mem_of_distance h, fun _ _ => BestFit.confidence_anti⟩⟩

/-- A vector with too much in the first dimension, and one that is far away, where all module types
are alike. -/
theorem Deviation.reported_ranges_uniform :
    let r : Registry := ⟨fun _ => ModuleType.shippedMatrix .api, fun _ => .upTo (.const 3.0)⟩
    let v : ComplexityVector := ⟨12.0, 4.0, 1.0, 1.0, 1.0⟩
    let w : ComplexityVector := .const 1e3
    let c := (r.profile .api).centroid
    (∀ d, (v.get d).isFinite) ∧ (∀ d, (c.get d).isFinite) ∧
      (∃ d, (∀ e, (v.get e - c.get e).abs ≤ (v.get d - c.get d).abs) ∧
        (Deviation.ofVector r v .api).maxDimensionDeviation =
          Rounding.toPlaces (v.get d - c.get d).abs 3) ∧
      (BestFit.ofVector r v).distance.isNaN = false ∧
      (BestFit.ofVector r v).distance ≤ (BestFit.ofVector r w).distance ∧
      (BestFit.ofVector r w).confidence ≤ (BestFit.ofVector r v).confidence := by
  intro r v w c
  have hv (d : Dimension) : (v.get d).isFinite := by cases d <;> decide +kernel
  have hc (d : Dimension) : (c.get d).isFinite := by cases d <;> decide +kernel
  have hnumber : (BestFit.ofVector r v).distance.isNaN = false := by decide +kernel
  have hfarther : (BestFit.ofVector r v).distance ≤ (BestFit.ofVector r w).distance := by
    decide +kernel
  obtain ⟨-, -, hlargest, hfit⟩ := Deviation.reported_ranges r .api v
  obtain ⟨d, -, hd⟩ := hlargest hv hc
  exact ⟨hv, hc, ⟨d, hd⟩, hnumber, hfarther, (hfit hnumber).2.2 r w hfarther⟩

end CodeComplexity
