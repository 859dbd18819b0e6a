import CodeComplexity.Proofs.Convergence
import CodeComplexity.Proofs.Double.TotalOrder

/-!
The three ways to judge a regularised score.

It is compared with two limits, its place in the stretch below the threshold is compared with zero
and one, and it is sorted into levels by limits of their own. With the usual threshold and strength
the stretch begins at one of the two limits and ends at the other, and the differences that decide
are exact where it matters, so all three say the same of every score that is a number.
-/

namespace CodeComplexity

open Double

variable {x : Float}

/-! ### Limits -/

lemma real_eight : real 8.0 = 8 := real_of_eq_ofNat (n := 8) (by decide) (by decide)

lemma real_ten : real 10.0 = 10 := real_of_eq_ofNat (n := 10) (by decide) (by decide)

/-- The double below ten is far enough below it that eight less than it is not rounded up to
two. -/
lemma two_le_sub_eight_iff (hx : x.isFinite) : 2.0 ≤ x - 8.0 ↔ 10.0 ≤ x := by
  have hsub := approximates_sub (y := 8.0) hx rfl
  rw [real_eight] at hsub
  rw [le_iff_value rfl hsub.not_isNaN, le_iff_real rfl hx, real_ten]
  constructor
  · intro h
    by_contra hlt
    have hgap := le_sub_of_lt (k := 3) (y := 10.0) hx rfl (by rw [real_ten]; exact not_le.1 hlt)
      (by rw [real_ten]; norm_num)
    rw [real_ten] at hgap
    have hgrid : OnGrid (2 - 2 ^ (-50 : ℤ)) :=
      ⟨2 ^ 51 - 1, -50, by norm_num, by norm_num, by norm_num⟩
    have hrange : |(2 : ℝ) - 2 ^ (-50 : ℤ)| < limit :=
      lt_of_lt_of_le (by norm_num [abs_lt]) (two_zpow_le.2 (show (1 : ℤ) ≤ 1024 by norm_num))
    have hle : real x - 8 ≤ 2 - 2 ^ (-50 : ℤ) := by
      norm_num at hgap ⊢
      linarith
    rw [hsub.value, value_of_isFinite (x := 2.0) rfl, real_two] at h
    have htwo := h.trans (rounded_le_onGrid hgrid hrange hle)
    exact htwo.not_gt (EReal.coe_lt_coe_iff.2 (by norm_num))
  · intro h
    exact hsub.le_value rfl (by rw [real_two]; linarith)

/-! ### Verdicts -/

/-- There are only two doubles that are infinite. -/
lemma eq_infinity {s : Float.Model.UnpackedFloat.Sign} (h : unpacked x = .infinity s) :
    x = 1.0 / 0.0 ∨ x = -1.0 / 0.0 := by
  have hx : x.isNaN = false := by rw [← isNaN_unpacked, h]; rfl
  cases s with
  | positive => exact .inl (eq_of_value_eq hx rfl (by rw [value, h]; rfl) (by rw [h]; rfl))
  | negative => exact .inr (eq_of_value_eq hx rfl (by rw [value, h]; rfl) (by rw [h]; rfl))

namespace Convergence

/-- **The usual verdict** is that of comparing with eight and ten. -/
theorem status_usual (hx : x.isNaN = false) : (judged x 10.0 2.0).status =
    if x < 8.0 then .safe else if x < 10.0 then .review else .violation := by
  rcases isFinite_or_infinity (f := unpacked x) hx with hfinite | ⟨s, hs⟩
  · have htarget : (10.0 - 2.0 : Float) = 8.0 := by decide
    have hvanish : ¬Vanishing x 10.0 2.0 := fun h => absurd h.1 (by decide)
    have hlt : ¬x < 10.0 ↔ 10.0 ≤ x := not_lt_iff hx rfl
    rw [status_eq hfinite rfl (by decide) rfl (by decide), htarget]
    simp only [hvanish, not_false_eq_true, and_true, two_le_sub_eight_iff hfinite, ← hlt, ite_not]
  · rcases eq_infinity hs with rfl | rfl <;> decide

example : (judged 9.999999999999998 10.0 2.0).status = .review := by decide

end Convergence

/-- Being at ten or above is having one of the two worst levels. -/
lemma Level.ofScore_high_or_extreme (x : Float) :
    Level.ofScore x = .high ∨ Level.ofScore x = .extreme ↔ ¬x < 10.0 := by
  have hbelow {c : Float} (hc : c < 10.0) (h : x < c) : x < 10.0 :=
    lt_of_value_le (lt_iff.1 h).2.2.le hc
  unfold Level.ofScore
  split_ifs with h2 h5 h10 h20
  · simpa using hbelow (by decide) h2
  · simpa using hbelow (by decide) h5
  · simpa using h10
  · simpa using h10
  · simpa using h10

namespace TensorScore

variable {s : TensorScore}

/-- What is a number lies in exactly one of the three ranges. -/
lemma count_ranges (h : s.regularized.isNaN = false) :
    [s.isSafe, s.needsReview, s.isViolation].count true = 1 := by
  have hlimits : value safeBelow ≤ value violationFrom := (le_iff.1 (by decide)).2.2
  have hsafe : s.regularized < safeBelow ↔ value s.regularized < value safeBelow :=
    lt_iff_value h rfl
  have hreview : safeBelow ≤ s.regularized ↔ value safeBelow ≤ value s.regularized :=
    le_iff_value rfl h
  have hreview' : s.regularized < violationFrom ↔ value s.regularized < value violationFrom :=
    lt_iff_value h rfl
  have hviolation : violationFrom ≤ s.regularized ↔ value violationFrom ≤ value s.regularized :=
    le_iff_value rfl h
  simp only [isSafe, needsReview, isViolation, hsafe, hreview, hreview', hviolation]
  rcases lt_or_ge (value s.regularized) (value safeBelow) with h1 | h1
  · simp [h1, h1.not_ge, (h1.trans_le hlimits).not_ge]
  · rcases lt_or_ge (value s.regularized) (value violationFrom) with h2 | h2
    · simp [h1, h1.not_gt, h2, h2.not_ge]
    · simp [h1, h1.not_gt, h2, h2.not_gt]

/-- The range is read off the verdict of comparing with eight and ten. -/
lemma ranges_iff (h : s.regularized.isNaN = false) :
    (s.isSafe = true ↔ (Convergence.judged s.regularized 10.0 2.0).status = .safe) ∧
    (s.needsReview = true ↔ (Convergence.judged s.regularized 10.0 2.0).status = .review) ∧
    (s.isViolation = true ↔ (Convergence.judged s.regularized 10.0 2.0).status = .violation) := by
  have hten (h8 : s.regularized < 8.0) : s.regularized < 10.0 :=
    lt_of_value_le (lt_iff.1 h8).2.2.le (by decide)
  have hreview : 8.0 ≤ s.regularized ↔ ¬s.regularized < 8.0 := (not_lt_iff h rfl).symm
  have hviolation : 10.0 ≤ s.regularized ↔ ¬s.regularized < 10.0 := (not_lt_iff h rfl).symm
  rw [Convergence.status_usual h]
  simp only [isSafe, needsReview, isViolation, safeBelow, violationFrom, hreview, hviolation]
  by_cases h8 : s.regularized < 8.0
  · simp [h8, hten h8]
  · by_cases h10 : s.regularized < 10.0 <;> simp [h8, h10]

/-- **The three readings of a score agree.** A score whose regularised value is a number, which may
be infinite, is in exactly one of the three ranges, and it is the one that the analysis of the value
says under the usual threshold and strength, which are those taken when neither is asked for. It is
a violation exactly if its level is one of the two worst. -/
theorem verdicts_agree (s : TensorScore) (h : s.regularized.isNaN = false) :
    [s.isSafe, s.needsReview, s.isViolation].count true = 1 ∧
    (s.isSafe = true ↔ (Convergence.judged s.regularized 10.0 2.0).status = .safe) ∧
    (s.needsReview = true ↔ (Convergence.judged s.regularized 10.0 2.0).status = .review) ∧
    (s.isViolation = true ↔ (Convergence.judged s.regularized 10.0 2.0).status = .violation) ∧
    Convergence.ofRequest (.ofScore s.regularized) = Convergence.judged s.regularized 10.0 2.0 ∧
    (s.isViolation = true ↔ s.level = .high ∨ s.level = .extreme) := by
  obtain ⟨hsafe, hreview, hviolation⟩ := ranges_iff h
  refine ⟨count_ranges h, hsafe, hreview, hviolation, rfl, ?_⟩
  rw [level, Level.ofScore_high_or_extreme, not_lt_iff h rfl, isViolation, decide_eq_true_iff]
  rfl

/-- The score of a vector whose length runs off the range. -/
theorem verdicts_agree_infinite :
    let s := (Scorer.ofRegistry .shipped).score (.const 1e200) .api
    s.regularized.isNaN = false ∧ s.isViolation = true ∧
      (s.level = .high ∨ s.level = .extreme) := by
  intro s
  have h : s.regularized.isNaN = false := by decide +kernel
  have hviolation : s.isViolation = true := by decide +kernel
  exact ⟨h, hviolation, (verdicts_agree s h).2.2.2.2.2.1 hviolation⟩

end TensorScore

end CodeComplexity
