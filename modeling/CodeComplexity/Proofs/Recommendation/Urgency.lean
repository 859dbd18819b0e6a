import CodeComplexity.Proofs.Engine.Overflow
import CodeComplexity.Proofs.Recommendation

/-!
How urgent a recommendation is.

The priority counts the full tenths in a share, so the filter that drops small shares leaves no
priority of one. For a vector and weights that are not below zero everything that is made of a
contribution is monotone in it: its share in the total, the count of tenths and the rounded impact.
So the ranking by contributions is one by priority and by impact as well. Past the end of the range
only infinite contributions keep a share, and that is no number and counts as the largest.
-/

namespace CodeComplexity.Recommendation

open Double

/-! ### Priorities -/

section Priorities

variable {s t : Float}

/-- **No share that is large enough has a priority of one**, nor one above five. -/
lemma priorityOf_mem (h : ¬s < minShare) : 2 ≤ priorityOf s ∧ priorityOf s ≤ 5 := by
  rw [priorityOf_eq h]
  split_ifs with hfinite
  · have hone : 1 ≤ ⌊real (s * 10.0)⌋₊ := (Nat.one_le_floor_iff _).2 (one_le_tenths h hfinite)
    omega
  · omega

/-- **A larger share has no lower priority.** -/
lemma priorityOf_mono (hst : Below s t) (h : ¬s < minShare) : priorityOf s ≤ priorityOf t := by
  have ht : ¬t < minShare := fun hsmall => h (hst.lt hsmall)
  by_cases hfinite : (t * 10.0).isFinite
  · have hscaled : Below (s * 10.0) (t * 10.0) := hst.mul (.refl (nonneg_of_le (by decide)))
    have hle := hscaled.le
    rw [value_of_isFinite hfinite] at hle
    have hs : (s * 10.0).isFinite :=
      (finite_of_nonneg hscaled.nonneg (hle.trans_lt (EReal.coe_lt_top _)).ne).1
    rw [value_of_isFinite hs, EReal.coe_le_coe_iff] at hle
    rw [priorityOf_eq h, priorityOf_eq ht, if_pos hs, if_pos hfinite]
    exact min_le_min_left _ (Nat.succ_le_succ (Nat.floor_mono hle))
  · rw [priorityOf_eq ht, if_neg hfinite]
    exact (priorityOf_mem h).2

end Priorities

/-! ### What is recommended -/

variable {nan : Dimension → UInt64} {v weights : ComplexityVector} {a b : Recommendation}

lemma get_contributions (d : Dimension) :
    (contributions v weights).get d = v.get d * weights.get d := PerDimension.get_zipWith ..

/-- A recommendation is the advice for its own dimension. -/
lemma mem_ofVectorWith : a ∈ ofVectorWith nan v weights ↔
    ¬((contributions v weights).sum == 0.0) = true ∧
      advise? (contributions v weights) (contributions v weights).sum a.dimension = some a := by
  unfold ofVectorWith
  dsimp only
  split_ifs with hzero
  · simp [hzero]
  · rw [List.mem_filterMap, and_iff_right hzero]
    constructor
    · rintro ⟨d, -, hd⟩
      rwa [dimension_of_advise? hd]
    · intro h
      exact ⟨a.dimension, (ranking_perm _).mem_iff.2 (Dimension.mem_all _), h⟩

/-- What a recommendation tells of its contribution. -/
lemma of_mem_ofVectorWith (h : a ∈ ofVectorWith nan v weights) :
    let share := (contributions v weights).get a.dimension / (contributions v weights).sum
    ¬share < minShare ∧ a.priority = priorityOf share ∧
      a.expectedImpact =
        Rounding.toPlaces ((contributions v weights).get a.dimension * impactFactor) 2 := by
  obtain ⟨hshare, ha⟩ := advise?_eq_some.1 (mem_ofVectorWith.1 h).2
  exact ⟨hshare, congrArg priority ha, congrArg expectedImpact ha⟩

/-! ### Contributions that are not below zero -/

section Share

variable {x total : Float} (htotal : 0.0 < total)

include htotal

/-- What is finite has no share in an infinite total. -/
lemma value_share_of_top (htop : value total = ⊤) (hx : x.isFinite) : value (x / total) = 0 :=
  value_div_infinity hx ((value_eq_top_iff (lt_iff.1 htotal).2.1).1 htop)

/-- What is zero has no share in any total. -/
lemma pos_of_share (hx : 0.0 ≤ x) (h : ¬x / total < minShare) : 0.0 < x := by
  obtain ⟨hnumber, hnonneg⟩ := zero_le_iff.1 hx
  rw [lt_iff_value rfl hnumber, value_zero]
  refine lt_of_le_of_ne hnonneg fun hzero => (value_pos_of_not_small h).not_ge ?_
  by_cases htop : value total = ⊤
  · have hfinite := (finite_of_nonneg hnonneg (hzero ▸ EReal.zero_ne_top)).1
    exact (value_share_of_top htotal htop hfinite).le
  · have hfinite := (finite_of_nonneg (nonneg_of_lt htotal) htop).1
    exact value_div_nonpos hnumber hfinite htotal hzero.ge

end Share

lemma zero_le_sum {c : PerDimension Float} (h : ∀ d, 0.0 ≤ c.get d) : 0.0 ≤ c.sum :=
  zero_le_foldl Dimension.all h

section Regular

variable (hv : v.FiniteNonneg) (hw : weightsValid weights = true)

include hv hw

lemma zero_le_contribution (d : Dimension) : 0.0 ≤ (contributions v weights).get d := by
  rw [get_contributions]
  exact zero_le_product hv (Config.weightsValid_eq_true.1 hw)

lemma sum_pos (h : a ∈ ofVectorWith nan v weights) : 0.0 < (contributions v weights).sum := by
  obtain ⟨hnumber, hnonneg⟩ := zero_le_iff.1 (zero_le_sum (zero_le_contribution hv hw))
  have hne := (mem_ofVectorWith.1 h).1
  rw [beq_iff_value hnumber rfl] at hne
  rw [lt_iff_value rfl hnumber]
  exact lt_of_le_of_ne (value_zero.trans_le hnonneg) (Ne.symm hne)

/-- Of two recommendations the one with the smaller contribution is less urgent. -/
lemma urgency_mono (ha : a ∈ ofVectorWith nan v weights) (hb : b ∈ ofVectorWith nan v weights)
    (h : ¬(contributions v weights).get a.dimension < (contributions v weights).get b.dimension) :
    b.priority ≤ a.priority ∧ b.expectedImpact ≤ a.expectedImpact := by
  have hca := zero_le_contribution hv hw a.dimension
  have hcb := zero_le_contribution hv hw b.dimension
  have hnumber {c : Float} (hc : 0.0 ≤ c) :
      (Rounding.toPlaces (c * impactFactor) 2).isNaN = false := by
    rw [Rounding.exact_two.isNaN_toPlaces, isNaN_mul_right rfl (by decide), not_isNaN_of_zero_le hc]
  have hbelow : Below ((contributions v weights).get b.dimension)
      ((contributions v weights).get a.dimension) :=
    below_of_le hcb ((not_lt_iff (not_isNaN_of_zero_le hca) (not_isNaN_of_zero_le hcb)).1 h)
  obtain ⟨-, hpa, hia⟩ := of_mem_ofVectorWith ha
  obtain ⟨hshare, hpb, hib⟩ := of_mem_ofVectorWith hb
  constructor
  · rw [hpa, hpb]
    exact priorityOf_mono (hbelow.div (sum_pos hv hw ha)) hshare
  · rw [hia, hib, le_iff_value (hnumber hcb) (hnumber hca)]
    exact (Rounding.exact_two.below_toPlaces
      (hbelow.mul (.refl (nonneg_of_le (by decide))))).le

end Regular

/-- **How urgent recommendations are.** For vectors and weights of any kind every priority is from
two to five. For a vector that is finite and not below zero and valid weights, every recommended
dimension contributes, and neither the priority nor the impact ever grows along the list, also where
the total or the contributions run off the range. -/
theorem ofVectorWith_urgency (nan : Dimension → UInt64) (v weights : ComplexityVector) :
    let rs := ofVectorWith nan v weights
    (∀ a ∈ rs, 2 ≤ a.priority ∧ a.priority ≤ 5) ∧
    (v.FiniteNonneg → weightsValid weights = true →
      (∀ a ∈ rs, 0.0 < v.get a.dimension * weights.get a.dimension) ∧
      rs.Pairwise fun a b => b.priority ≤ a.priority ∧ b.expectedImpact ≤ a.expectedImpact) := by
  intro rs
  refine ⟨fun a ha => ?priority, fun hv hw => ⟨fun a ha => ?contributes, ?falls⟩⟩
  case priority =>
    obtain ⟨hshare, hpriority, -⟩ := of_mem_ofVectorWith ha
    rw [hpriority]
    exact priorityOf_mem hshare
  case contributes =>
    rw [← get_contributions]
    exact pos_of_share (sum_pos hv hw ha) (zero_le_contribution hv hw _) (of_mem_ofVectorWith ha).1
  case falls =>
    refine (pairwise_ofVectorWith nan v weights).imp_of_mem fun ha hb h => ?_
    rw [← get_contributions, ← get_contributions] at h
    exact urgency_mono hv hw ha hb h

/-- Among others for two infinite contributions next to a finite one, which has no share then. -/
theorem ofVectorWith_urgency_overflow :
    let v : ComplexityVector := ⟨1e308, 1e308, 1.0, 0.0, 0.0⟩
    let weights : ComplexityVector := ⟨2.0, 3.0, 1.0, 1.0, 1.0⟩
    let rs := ofVectorWith (fun _ => DoubleBits.plainNaN) v weights
    v.FiniteNonneg ∧ weightsValid weights = true ∧
      (rs.map fun a => (a.dimension, a.priority)) = [(.control, 5), (.nesting, 5)] ∧
      rs.Pairwise fun a b => b.priority ≤ a.priority ∧ b.expectedImpact ≤ a.expectedImpact := by
  intro v weights rs
  have hv : v.FiniteNonneg := fun d => by cases d <;> decide +kernel
  have hw : weightsValid weights = true := by decide +kernel
  exact ⟨hv, hw, by decide +kernel, ((ofVectorWith_urgency _ v weights).2 hv hw).2⟩

end CodeComplexity.Recommendation
