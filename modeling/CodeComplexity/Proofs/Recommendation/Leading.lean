import CodeComplexity.Proofs.Recommendation.Urgency
import CodeComplexity.Proofs.WeightedTotal

/-!
What stands first among the recommendations, and when there are none.

Of five contributions the largest is a fifth of their sum at least, and rounding the sum moves it by
far less than what lies between a fifth and the tenth that a recommendation takes. That holds for as
long as the sum stays finite. In an infinite sum a finite contribution has no share, so only
infinite contributions are recommended then; if there are none of them, nothing is.
-/

namespace CodeComplexity.Recommendation

open Double WeightedTotal

/-! ### Shares -/

lemma real_eighth : real 0.125 = 1 / 8 := by
  have h : unpacked 0.125 = .finite .positive (2 ^ 52) (-55) (by decide) := rfl
  rw [real_of_unpacked h]
  norm_num

section Share

variable {x total : Float} (htotal : 0.0 < total)

include htotal

/-- What is at least an eighth of a finite total has a share that is large enough. -/
lemma not_small_of_eighth (hx : x.isFinite) (hfinite : total.isFinite)
    (h : real total / 8 ≤ real x) : ¬x / total < minShare := by
  have hpos := real_pos hfinite htotal
  have heighth : real 0.125 ≤ real x / real total := by
    rw [real_eighth, le_div_iff₀ hpos]
    linarith
  have hshare : value 0.125 ≤ value (x / total) :=
    (approximates_div hx hfinite hpos.ne').le_value rfl heighth
  have hsmall : value minShare < value 0.125 := (lt_iff.1 (by decide)).2.2
  exact fun hlt => ((lt_iff.1 hlt).2.2.trans hsmall).not_ge hshare

/-- In an infinite total only what is infinite has one. -/
lemma not_small_iff_isInf (hx : 0.0 ≤ x) (hinf : total.isInf = true) :
    ¬x / total < minShare ↔ x.isInf = true := by
  have hnumber := not_isNaN_of_zero_le hx
  constructor
  · intro h
    by_contra hfinite
    have htop := (isInf_iff_value (zero_le_of_lt htotal)).1 hinf
    exact (value_pos_of_not_small h).ne'
      (value_share_of_top htotal htop (isFinite_of_not_isInf hnumber hfinite))
  · intro h hlt
    have hnan := (isNaN_div_iff hnumber htotal).2 ⟨h, hinf⟩
    exact Bool.noConfusion ((lt_iff.1 hlt).1.symm.trans hnan)

end Share

/-! ### Sums of what is not below zero -/

section Sum

variable {c : PerDimension Float} (h : ∀ d, 0.0 ≤ c.get d)

include h

lemma get_le_sum (d : Dimension) : c.get d ≤ c.sum := by
  rw [le_iff_value (not_isNaN_of_zero_le (h d)) (not_isNaN_of_zero_le (zero_le_sum h))]
  exact (adds_fromZero c).le_result h d

lemma isFinite_get (hfinite : c.sum.isFinite) (d : Dimension) : (c.get d).isFinite :=
  isFinite_of_le (h d) (get_le_sum h d) hfinite

lemma isInf_sum {d : Dimension} (hinf : (c.get d).isInf = true) : c.sum.isInf = true := by
  rw [isInf_iff_value (h d)] at hinf
  rw [isInf_iff_value (zero_le_sum h), ← top_le_iff, ← hinf]
  exact (le_iff.1 (get_le_sum h d)).2.2

/-- A finite sum is not much more than five times any bound for its parts. -/
lemma sum_le_of_forall_le (hfinite : c.sum.isFinite) {r : ℝ} (hr : ∀ d, real (c.get d) ≤ r) :
    (c.map real).total ≤ 5 * r ∧ real c.sum ≤ (5 + 2 ^ (-47 : ℤ)) * r := by
  have hadds := adds_fromZero c
  have hexact : (c.map real).total ≤ 5 * r := by
    change real _ + real _ + real _ + real _ + real _ ≤ _
    linarith [hr .control, hr .nesting, hr .state, hr .async, hr .coupling]
  obtain ⟨h0, -, hclose⟩ := Summation.estimates_of_isFinite (hadds.zero_le_summands h) hfinite
    (hadds.depth.trans (by norm_num))
  have hdepth : ((fromZero c).depth : ℝ) = 5 := by norm_cast
  rw [hadds.exact] at h0 hclose
  rw [hdepth, abs_le] at hclose
  have hsum : real c.sum ≤ (1 + 5 * 2 ^ (-52 : ℤ)) * (c.map real).total := by
    have hupper : real c.sum - (c.map real).total ≤ _ := hclose.2
    linarith
  refine ⟨hexact, ?_⟩
  norm_num at hsum ⊢
  linarith

/-- In a finite sum above zero some part has a share that is large enough. -/
lemma exists_not_small (hfinite : c.sum.isFinite) (hpos : 0.0 < c.sum) :
    ∃ d, ¬c.get d / c.sum < minShare := by
  by_contra! hsmall
  have hbound (d : Dimension) : real (c.get d) ≤ real c.sum / 8 := by
    by_contra! hlt
    exact not_small_of_eighth hpos (isFinite_get h hfinite d) hfinite hlt.le (hsmall d)
  have hle := (sum_le_of_forall_le h hfinite hbound).2
  have hreal := real_pos hfinite hpos
  norm_num at hle
  linarith

end Sum

/-! ### What is recommended -/

variable {nan : Dimension → UInt64} {v weights : ComplexityVector} {a : Recommendation}
  {rest : List Recommendation}

/-- A dimension is recommended if its share is large enough. -/
lemma exists_mem_ofVectorWith {d : Dimension} :
    (∃ a ∈ ofVectorWith nan v weights, a.dimension = d) ↔
      ¬((contributions v weights).sum == 0.0) = true ∧
        ¬(contributions v weights).get d / (contributions v weights).sum < minShare := by
  constructor
  · rintro ⟨a, ha, rfl⟩
    exact ⟨(mem_ofVectorWith.1 ha).1, (of_mem_ofVectorWith ha).1⟩
  · rintro ⟨hne, hd⟩
    obtain ⟨a, ha⟩ : ∃ a, advise? (contributions v weights) (contributions v weights).sum d =
        some a := ⟨_, advise?_eq_some.2 ⟨hd, rfl⟩⟩
    obtain rfl := dimension_of_advise? ha
    exact ⟨a, mem_ofVectorWith.2 ⟨hne, ha⟩, rfl⟩

section Regular

variable (hv : v.FiniteNonneg) (hw : weightsValid weights = true)

include hv hw

/-- In an infinite sum only infinite contributions are recommended. -/
lemma isInf_of_mem (ha : a ∈ ofVectorWith nan v weights)
    (hfinite : ¬(contributions v weights).sum.isFinite) :
    ((contributions v weights).get a.dimension).isInf = true := by
  have hpos := sum_pos hv hw ha
  have hinf := not_imp_comm.1 (isFinite_of_not_isInf (lt_iff.1 hpos).2.1) hfinite
  exact (not_small_iff_isInf hpos (zero_le_contribution hv hw _) hinf).1 (of_mem_ofVectorWith ha).1

lemma ofVectorWith_ne_nil_iff : ofVectorWith nan v weights ≠ [] ↔
    (∃ d, 0.0 < (contributions v weights).get d) ∧
      ((contributions v weights).sum.isFinite ∨
        ∃ d, ((contributions v weights).get d).isInf = true) := by
  have hc := zero_le_contribution hv hw
  constructor
  · intro h
    obtain ⟨a, ha⟩ := List.exists_mem_of_ne_nil _ h
    refine ⟨⟨a.dimension, ?pos⟩, or_iff_not_imp_left.2 fun hfinite => ⟨a.dimension, ?infinite⟩⟩
    case pos => exact pos_of_share (sum_pos hv hw ha) (hc _) (of_mem_ofVectorWith ha).1
    case infinite => exact isInf_of_mem hv hw ha hfinite
  · rintro ⟨⟨d, hd⟩, h⟩
    have hpos : 0.0 < (contributions v weights).sum := pos_of_pos_of_le hd (get_le_sum hc d)
    obtain ⟨e, he⟩ : ∃ e, ¬(contributions v weights).get e / (contributions v weights).sum <
        minShare := by
      rcases h with hfinite | ⟨e, he⟩
      · exact exists_not_small hc hfinite hpos
      · exact ⟨e, (not_small_iff_isInf hpos (hc e) (isInf_sum hc he)).2 he⟩
    obtain ⟨a, ha, -⟩ := exists_mem_ofVectorWith.2 ⟨ne_zero_of_pos hpos, he⟩
    exact List.ne_nil_of_mem ha

/-- The first recommendation is for a largest contribution. -/
lemma le_of_first (h : ofVectorWith nan v weights = a :: rest) (d : Dimension) :
    (contributions v weights).get d ≤ (contributions v weights).get a.dimension := by
  have ha : a ∈ ofVectorWith nan v weights := h ▸ List.mem_cons_self
  have hca := zero_le_contribution hv hw a.dimension
  have hcd := zero_le_contribution hv hw d
  rw [← not_lt_iff (not_isNaN_of_zero_le hca) (not_isNaN_of_zero_le hcd)]
  intro hlt
  have hbelow : Below _ _ := ⟨nonneg_of_le hca, (lt_iff.1 hlt).2.2.le⟩
  -- what contributes more has no smaller share, so it is recommended as well
  have hshare : ¬(contributions v weights).get d / (contributions v weights).sum < minShare :=
    fun hsmall => (of_mem_ofVectorWith ha).1 ((hbelow.div (sum_pos hv hw ha)).lt hsmall)
  obtain ⟨b, hb, rfl⟩ := exists_mem_ofVectorWith.2 ⟨(mem_ofVectorWith.1 ha).1, hshare⟩
  have hranked := pairwise_ofVectorWith nan v weights
  rw [h] at hranked hb
  rcases List.mem_cons.1 hb with rfl | hb
  · exact lt_irrefl _ (lt_iff.1 hlt).2.2
  · rw [get_contributions, get_contributions] at hlt
    exact (List.pairwise_cons.1 hranked).1 b hb hlt

end Regular

/-- **What stands first, and when there is anything at all**, for a vector that is finite and not
below zero and valid weights. There are recommendations exactly if a dimension contributes and the
total is finite, or a contribution infinite. The first one is then for a dimension of largest
contribution. That is infinite if the total is, and else at least a fifth of the exact sum, and of
the total up to rounding. -/
theorem ofVectorWith_leading (nan : Dimension → UInt64) (v weights : ComplexityVector)
    (hv : v.FiniteNonneg) (hw : weightsValid weights = true) :
    let c := fun d : Dimension => v.get d * weights.get d
    let total := 0.0 + c .control + c .nesting + c .state + c .async + c .coupling
    let rs := ofVectorWith nan v weights
    (rs ≠ [] ↔ (∃ d, 0.0 < c d) ∧ (total.isFinite ∨ ∃ d, (c d).isInf = true)) ∧
    ∀ a rest, rs = a :: rest →
      (∀ d, c d ≤ c a.dimension) ∧
      (¬total.isFinite → (c a.dimension).isInf = true) ∧
      (total.isFinite →
        real (c .control) + real (c .nesting) + real (c .state) + real (c .async) +
          real (c .coupling) ≤ 5 * real (c a.dimension) ∧
        real total ≤ (5 + 2 ^ (-47 : ℤ)) * real (c a.dimension)) := by
  intro c total rs
  have hc (d : Dimension) : (contributions v weights).get d = c d := get_contributions d
  have htotal : (contributions v weights).sum = total := rfl
  have hnonneg := zero_le_contribution hv hw
  refine ⟨?nonempty, fun a rest h => ⟨fun d => ?largest, fun hfinite => ?infinite,
    fun hfinite => ?fifth⟩⟩
  case nonempty =>
    have h : ofVectorWith nan v weights ≠ [] ↔ _ := ofVectorWith_ne_nil_iff hv hw
    simpa only [hc, htotal] using h
  case largest =>
    rw [← hc, ← hc]
    exact le_of_first hv hw h d
  case infinite =>
    rw [← hc]
    exact isInf_of_mem hv hw (h ▸ List.mem_cons_self) hfinite
  case fifth =>
    have hle (d : Dimension) : real ((contributions v weights).get d) ≤ real (c a.dimension) := by
      rw [← hc, ← le_iff_real (isFinite_get hnonneg hfinite d) (isFinite_get hnonneg hfinite _)]
      exact le_of_first hv hw h d
    exact sum_le_of_forall_le hnonneg hfinite hle

/-- So for a vector that comes close to the end of the range. -/
theorem ofVectorWith_leading_large :
    let v : ComplexityVector := ⟨1e308, 1e307, 0.0, 0.0, 0.0⟩
    let weights := ComplexityVector.defaultWeights
    v.FiniteNonneg ∧ weightsValid weights = true ∧
      ofVectorWith (fun _ => DoubleBits.plainNaN) v weights ≠ [] := by
  intro v weights
  have hv : v.FiniteNonneg := fun d => by cases d <;> decide +kernel
  have hw : weightsValid weights = true := by decide +kernel
  exact ⟨hv, hw, (ofVectorWith_leading _ v weights hv hw).1.2
    ⟨⟨.control, by decide +kernel⟩, .inl (by decide +kernel)⟩⟩

/-- **But what contributes may be left without advice**: two contributions that are large and finite
can have an infinite total. -/
theorem ofVector_eq_nil_overflow : ¬∀ v weights : ComplexityVector, v.FiniteNonneg →
    weightsValid weights = true → (∃ d, 0.0 < v.get d * weights.get d) →
      ofVector v weights ≠ [] := fun h =>
  h ⟨1e308, 1e308, 0.0, 0.0, 0.0⟩ .defaultWeights (fun d => by cases d <;> decide +kernel)
    (by decide +kernel) ⟨.control, by decide +kernel⟩ (by decide +kernel)

end CodeComplexity.Recommendation
