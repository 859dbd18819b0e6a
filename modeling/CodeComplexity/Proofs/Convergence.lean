import CodeComplexity.Convergence
import CodeComplexity.Proofs.Double.Number

/-!
The verdict on a score against a threshold.

The verdict is taken from a quotient of differences, and each of its three operations rounds. What
it says is given here in comparisons of doubles, exactly; beside it stands the reading by the
threshold and the target alone, and where the two part.
-/

namespace CodeComplexity.Convergence

open Double

/-- The analysis of a score under a threshold and a strength, with no oscillation seen. -/
def judged (score threshold epsilon : Float) : Convergence :=
  .ofRequest { Request.ofScore score with threshold := some threshold, epsilon := some epsilon }

/-- The verdict by the threshold and the target: a violation at the threshold or above, safe below
the target, a case for review between them. -/
def regionOf (score threshold target : Float) : ConvergenceStatus :=
  if threshold ≤ score then .violation else if score < target then .safe else .review

/-- A score so little below zero that its quotient by the strength vanishes, under a threshold that
equals the strength. -/
def Vanishing (score threshold epsilon : Float) : Prop :=
  (threshold == epsilon) = true ∧ score < 0.0 ∧ (score / epsilon == 0.0) = true

instance (score threshold epsilon : Float) : Decidable (Vanishing score threshold epsilon) :=
  inferInstanceAs (Decidable (_ ∧ _ ∧ _))

variable {score threshold epsilon : Float}

/-! ### Scores in the stretch -/

lemma scoreOf_zero (h : (epsilon == 0.0) = true) : scoreOf score threshold epsilon =
    if threshold - epsilon < score then 1.0 / 0.0 else 0.0 := by
  simp only [scoreOf, h, if_true]

lemma scoreOf_pos (he0 : 0.0 < epsilon) :
    scoreOf score threshold epsilon = (score - (threshold - epsilon)) / epsilon := by
  simp only [scoreOf, ne_zero_of_pos he0]
  rfl

/-- Without a strength the target is the threshold. -/
lemma target_zero (ht : threshold.isFinite) (he : epsilon.isFinite) (h : (epsilon == 0.0) = true) :
    (threshold - epsilon).isFinite ∧ real (threshold - epsilon) = real threshold := by
  have hsub := approximates_sub ht he
  rw [(beq_iff_real he rfl).1 h, real_zero, sub_zero] at hsub
  exact hsub.exact (onGrid_real threshold) (abs_real_lt threshold)

/-! ### The verdict -/

lemma status_judged (score threshold epsilon : Float) : (judged score threshold epsilon).status =
    .ofScore (scoreOf score threshold epsilon) false := rfl

section

variable (hs : score.isFinite) (ht : threshold.isFinite) (ht0 : 0.0 < threshold)
  (he : epsilon.isFinite) (he0 : 0.0 < epsilon)

include ht ht0 he he0

lemma target_spec :
    (threshold - epsilon).isFinite ∧ real (threshold - epsilon) ≤ real threshold := by
  have hpos := real_pos he he0
  obtain ⟨hfinite, hreal⟩ := real_sub ht he (real_pos ht ht0).le hpos.le
  exact ⟨hfinite, hreal ▸ nearest_le_onGrid (onGrid_real threshold) (by linarith)⟩

include hs

/-- The quotient is a number, and its comparisons are those of the dividend. -/
lemma quotient_spec :
    ((score - (threshold - epsilon)) / epsilon < 1.0 ↔
      ¬epsilon ≤ score - (threshold - epsilon)) ∧
    ((score - (threshold - epsilon)) / epsilon < 0.0 ↔
      score < threshold - epsilon ∧
        ¬((score - (threshold - epsilon)) / epsilon == 0.0) = true) := by
  obtain ⟨htarget, -⟩ := target_spec ht ht0 he he0
  have hdiff := (approximates_sub hs htarget).not_isNaN
  have hquot := not_isNaN_div hdiff he he0
  constructor
  · rw [lt_iff_value hquot rfl, value_one, value_div_lt_one_iff hdiff he he0,
      le_iff_value (not_isNaN_of_isFinite he) hdiff, not_le]
  · rw [div_neg_iff hdiff he he0, value_sub_neg_iff hs htarget]

/-- How far a score below its target lies below it, in terms of the strength: the target is not
smaller than half the last place of the strength, unless it is zero. -/
lemma gap_below_target (hne : real threshold ≠ real epsilon) (h : score < threshold - epsilon) :
    ∃ k : ℤ, k < 1024 ∧ real epsilon ≤ 2 ^ (k + 54) ∧
      real score - real (threshold - epsilon) ≤ -2 ^ (k - 53) := by
  obtain ⟨htarget, -⟩ := target_spec ht ht0 he he0
  obtain ⟨m, a, hm, -, hnormal, hthreshold⟩ := unpacked_of_pos ht ht0
  obtain ⟨n, b, hn, -, hnormal', hepsilon⟩ := unpacked_of_pos he he0
  have hb : -1074 ≤ b := hnormal'.2.1
  set k := max (b - 1) (-1074) with hk
  have hdist : 2 ^ k ≤ |real (threshold - epsilon)| := by
    rw [(real_sub ht he (real_pos ht ht0).le (real_pos he he0).le).2, hthreshold, hepsilon]
    exact le_abs_nearest (le_max_right _ _)
      (le_abs_sub_of_ne hnormal hnormal' (hthreshold ▸ hepsilon ▸ hne))
  refine ⟨k, two_zpow_lt.1 (hdist.trans_lt (abs_real_lt _)), ?_, ?_⟩
  · have hn' : (n : ℝ) ≤ 2 ^ (53 : ℤ) := by exact_mod_cast hnormal'.1.le
    rw [hepsilon]
    calc (n : ℝ) * 2 ^ b ≤ 2 ^ (53 : ℤ) * 2 ^ b :=
          mul_le_mul_of_nonneg_right hn' (two_zpow_pos b).le
      _ = 2 ^ (53 + b) := (two_zpow_add 53 b).symm
      _ ≤ 2 ^ (k + 54) := two_zpow_le.2 (by omega)
  · have := le_sub_of_lt hs htarget ((lt_iff_real hs htarget).1 h) hdist
    linarith

/-- The quotient of a score below its target does not vanish, unless the target is zero. -/
lemma quotient_ne_zero (hne : real threshold ≠ real epsilon) (h : score < threshold - epsilon) :
    ¬((score - (threshold - epsilon)) / epsilon == 0.0) = true := by
  obtain ⟨htarget, -⟩ := target_spec ht ht0 he he0
  have hdiff := approximates_sub hs htarget
  have hneg := (value_sub_neg_iff hs htarget).2 h
  have hpos := real_pos he he0
  rw [beq_iff, value_zero]
  rintro ⟨-, -, hzero⟩
  refine (lt_of_lt_of_eq ?_ hzero.symm).not_ge le_rfl
  rcases isFinite_or_infinity (f := unpacked (score - (threshold - epsilon))) hdiff.not_isNaN with
    hfinite | ⟨s, hinf⟩
  · obtain ⟨k, hk, hstrength, hgap⟩ := gap_below_target hs ht ht0 he he0 hne h
    have hreal := real_sub_le hs htarget hfinite (by omega) hgap
    have hquot : real (score - (threshold - epsilon)) / real epsilon ≤ -2 ^ (-107 : ℤ) := by
      rw [div_le_iff₀ hpos]
      have hsplit : (2 : ℝ) ^ (k - 53) = 2 ^ (-107 : ℤ) * 2 ^ (k + 54) := by
        rw [← two_zpow_add]
        congr 1
        ring
      have := mul_le_mul_of_nonneg_left hstrength (two_zpow_pos (-107)).le
      linarith
    rw [(approximates_div hfinite he hpos.ne').value]
    exact rounded_neg (by norm_num) hquot
  · rw [value, unpacked_infinity_div hinf he he0, ← hinf]
    exact hneg

/-- The only scores below their target whose quotient vanishes are those of a zero target. -/
lemma vanishing_iff :
    score < threshold - epsilon ∧ ((score - (threshold - epsilon)) / epsilon == 0.0) = true ↔
      Vanishing score threshold epsilon := by
  obtain ⟨htarget, -⟩ := target_spec ht ht0 he he0
  have hpos := real_pos he he0
  rw [Vanishing, beq_iff_real ht he]
  by_cases heq : real threshold = real epsilon
  · have hzero : real (threshold - epsilon) = 0 := by
      rw [(real_sub ht he (real_pos ht ht0).le hpos.le).2, heq, sub_self, nearest_zero]
    have hdiff := approximates_sub hs htarget
    rw [hzero, sub_zero] at hdiff
    obtain ⟨hfinite, hreal⟩ := hdiff.exact (onGrid_real score) (abs_real_lt score)
    have hquot := approximates_div hfinite he hpos.ne'
    rw [hreal] at hquot
    have hquot' := approximates_div hs he hpos.ne'
    rw [lt_iff_real hs htarget, hzero, lt_iff_real hs rfl, real_zero, beq_iff, beq_iff,
      hquot.value, hquot'.value, hquot.not_isNaN, hquot'.not_isNaN]
    simp [heq]
  · exact iff_of_false (fun h => quotient_ne_zero hs ht ht0 he he0 heq h.1 h.2) fun h => heq h.1

/-- The verdict, in comparisons of doubles. -/
lemma status_eq : (judged score threshold epsilon).status =
    if score < threshold - epsilon ∧ ¬Vanishing score threshold epsilon then .safe
    else if epsilon ≤ score - (threshold - epsilon) then .violation else .review := by
  obtain ⟨hone, hzero⟩ := quotient_spec hs ht ht0 he he0
  have hvanish := vanishing_iff hs ht ht0 he he0
  have hsafe : (score - (threshold - epsilon)) / epsilon < 0.0 ↔
      score < threshold - epsilon ∧ ¬Vanishing score threshold epsilon := by
    rw [hzero, ← hvanish]
    exact and_congr_right fun h => not_congr ⟨fun hq => ⟨h, hq⟩, fun hq => hq.2⟩
  rw [status_judged, scoreOf_pos he0]
  simp only [ConvergenceStatus.ofScore, hsafe, hone, ite_not, Bool.false_eq_true, if_false]

/-- A score below its target is below the threshold, and not the strength above the target. -/
lemma below_target (h : score < threshold - epsilon) :
    ¬threshold ≤ score ∧ ¬epsilon ≤ score - (threshold - epsilon) := by
  obtain ⟨htarget, hle⟩ := target_spec ht ht0 he he0
  constructor
  · rw [le_iff_real ht hs]
    have := (lt_iff_real hs htarget).1 h
    linarith
  · intro hge
    have hneg := (value_sub_neg_iff hs htarget).2 h
    have hpos := (pos_of_lt he0).trans_le (le_iff.1 hge).2.2
    exact hneg.not_gt hpos

end

/-- **The verdict, and where it parts from the regions.** Under a positive finite threshold and
strength a finite score is a violation exactly if it is at least the strength above its target, in
doubles. It is safe exactly if it lies below the target, but for scores so little below zero that
their quotient by the strength vanishes, and these only if threshold and strength are equal. So the
verdict is that of the regions exactly if being the strength above the target is being at the
threshold, and the score is not one of those. -/
theorem status_spec (score threshold epsilon : Float) (hs : score.isFinite)
    (ht : threshold.isFinite) (ht0 : 0.0 < threshold) (he : epsilon.isFinite)
    (he0 : 0.0 < epsilon) :
    ((judged score threshold epsilon).status = .violation ↔
      epsilon ≤ score - (threshold - epsilon)) ∧
    ((judged score threshold epsilon).status = .safe ↔
      score < threshold - epsilon ∧ ¬Vanishing score threshold epsilon) ∧
    (judged score threshold epsilon).status ≠ .oscillating ∧
    ((judged score threshold epsilon).status = regionOf score threshold (threshold - epsilon) ↔
      (epsilon ≤ score - (threshold - epsilon) ↔ threshold ≤ score) ∧
      ¬Vanishing score threshold epsilon) := by
  rw [status_eq hs ht ht0 he he0, regionOf]
  by_cases hbelow : score < threshold - epsilon
  · -- safe in both readings, unless the quotient vanishes
    obtain ⟨hthreshold, hviolation⟩ := below_target hs ht ht0 he he0 hbelow
    by_cases hvanish : Vanishing score threshold epsilon <;>
      simp [hbelow, hthreshold, hviolation, hvanish]
  · -- no quotient vanishes here, and the two thresholds for a violation are what is compared
    have hvanish : ¬Vanishing score threshold epsilon :=
      fun h => hbelow ((vanishing_iff hs ht ht0 he he0).2 h).1
    by_cases hviolation : epsilon ≤ score - (threshold - epsilon) <;>
      by_cases hthreshold : threshold ≤ score <;> simp [hbelow, hvanish, hviolation, hthreshold]

/-- The usual strength puts the target at eight. -/
theorem status_seven : (judged 7.0 10.0 2.0).status = .safe :=
  (status_spec 7.0 10.0 2.0 rfl rfl (by decide) rfl (by decide)).2.1.2 ⟨by decide, by decide⟩

/-- The verdict does part from the regions: for a score at the threshold, for one just below it and
for one just below the target. -/
theorem status_ne_regionOf :
    ((judged 10.0 10.0 0.1).status = .review ∧ regionOf 10.0 10.0 (10.0 - 0.1) = .violation) ∧
    ((judged 0.9999999999999999 1.0 1e10).status = .violation ∧
      regionOf 0.9999999999999999 1.0 (1.0 - 1e10) = .review) ∧
    (judged (-5e-324) 2.0 2.0).status = .review ∧ regionOf (-5e-324) 2.0 (2.0 - 2.0) = .safe := by
  decide +kernel

end CodeComplexity.Convergence
