import CodeComplexity.Config
import CodeComplexity.Proofs.Double.Value
import CodeComplexity.Proofs.Registry.Validity
import CodeComplexity.Proofs.Scan

/-!
What the check of the parameters lets through.

Each number is refused if it is not finite or lies on the wrong side of zero. A finite number
compares with zero, so what is not refused lies on the right side.
-/

namespace CodeComplexity.Config

open Double

lemma refused_below_iff {x : Float} :
    (!x.isFinite || decide (x < 0.0)) = true ↔ ¬(x.isFinite ∧ 0.0 ≤ x) := by
  cases hx : x.isFinite with
  | false => simp
  | true =>
    have hle : ¬x < 0.0 ↔ 0.0 ≤ x := not_lt_iff (not_isNaN_of_isFinite hx) rfl
    simp [← hle]

lemma refused_up_to_iff {x : Float} :
    (!x.isFinite || decide (x ≤ 0.0)) = true ↔ ¬(x.isFinite ∧ 0.0 < x) := by
  cases hx : x.isFinite with
  | false => simp
  | true =>
    have hlt : ¬x ≤ 0.0 ↔ 0.0 < x := not_le_iff (not_isNaN_of_isFinite hx) rfl
    simp [← hlt]

lemma isWeight_eq_true {x : Float} : isWeight x = true ↔ x.isFinite ∧ 0.0 ≤ x := by
  rw [← not_not (a := x.isFinite ∧ 0.0 ≤ x), ← refused_below_iff, isWeight]
  simp

lemma invalidWeight?_eq_none {weights : ComplexityVector} :
    invalidWeight? weights = none ↔ ∀ d, (weights.get d).isFinite ∧ 0.0 ≤ weights.get d := by
  simp [invalidWeight?, List.find?_eq_none, isWeight_eq_true]

/-- Valid weights are finite and not below zero. -/
lemma weightsValid_eq_true {weights : ComplexityVector} :
    weightsValid weights = true ↔ ∀ d, (weights.get d).isFinite ∧ 0.0 ≤ weights.get d := by
  rw [weightsValid, Option.isNone_iff_eq_none, invalidWeight?_eq_none]

/-- **Checked parameters** are finite, the threshold is above zero and nothing is below. -/
theorem parameterFault?_eq_none {p : Parameters} :
    parameterFault? p = none ↔
      (p.epsilon.isFinite ∧ 0.0 ≤ p.epsilon) ∧ (p.threshold.isFinite ∧ 0.0 < p.threshold) ∧
      ∀ d, (p.weights.get d).isFinite ∧ 0.0 ≤ p.weights.get d := by
  unfold parameterFault?
  split_ifs with hepsilon hthreshold
  · exact iff_of_false (by simp) fun h => refused_below_iff.1 hepsilon h.1
  · exact iff_of_false (by simp) fun h => refused_up_to_iff.1 hthreshold h.2.1
  · rw [refused_below_iff, not_not] at hepsilon
    rw [refused_up_to_iff, not_not] at hthreshold
    rw [Option.map_eq_none_iff, invalidWeight?_eq_none, and_iff_right hepsilon,
      and_iff_right hthreshold]

lemma invalidWeight?_eq_some {weights : ComplexityVector} {d : Dimension} :
    invalidWeight? weights = some d ↔ ¬((weights.get d).isFinite ∧ 0.0 ≤ weights.get d) ∧
      ∀ e, e.index < d.index → (weights.get e).isFinite ∧ 0.0 ≤ weights.get e := by
  simp only [invalidWeight?, Dimension.find?_all_eq_some, Bool.not_eq_true', ← Bool.not_eq_true,
    isWeight_eq_true, not_not]

/-- Of several faults the strength comes first, then the threshold, then the weights in order. -/
theorem parameterFault?_eq_some {p : Parameters} {e : ConfigError} :
    parameterFault? p = some e ↔
      ¬(p.epsilon.isFinite ∧ 0.0 ≤ p.epsilon) ∧ e = .invalidEpsilon p.epsilon ∨
      (p.epsilon.isFinite ∧ 0.0 ≤ p.epsilon) ∧
        (¬(p.threshold.isFinite ∧ 0.0 < p.threshold) ∧ e = .invalidThreshold p.threshold ∨
        (p.threshold.isFinite ∧ 0.0 < p.threshold) ∧
          ∃ d, invalidWeight? p.weights = some d ∧ e = .invalidWeight d (p.weights.get d)) := by
  unfold parameterFault?
  split_ifs with hepsilon hthreshold
  · rw [refused_below_iff] at hepsilon
    rw [Option.some_inj, and_iff_right hepsilon, or_iff_left fun h => hepsilon h.1, eq_comm]
  · rw [refused_below_iff, not_not] at hepsilon
    rw [refused_up_to_iff] at hthreshold
    rw [Option.some_inj, or_iff_right fun h => h.1 hepsilon, and_iff_right hepsilon,
      and_iff_right hthreshold, or_iff_left fun h => hthreshold h.1, eq_comm]
  · rw [refused_below_iff, not_not] at hepsilon
    rw [refused_up_to_iff, not_not] at hthreshold
    rw [or_iff_right fun h => h.1 hepsilon, and_iff_right hepsilon,
      or_iff_right fun h => h.1 hthreshold, and_iff_right hthreshold, Option.map_eq_some_iff]
    simp only [eq_comm (a := e)]

lemma parameterFault?_default : parameterFault? .default = none := by decide +kernel

lemma validate_default : Config.default.validate = .ok () := by decide +kernel

end CodeComplexity.Config
