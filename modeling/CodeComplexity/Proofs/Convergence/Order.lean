import CodeComplexity.Proofs.Config.Validity
import CodeComplexity.Proofs.Convergence
import CodeComplexity.Proofs.Double.Difference
import CodeComplexity.Proofs.Rounding

/-!
Verdicts in order.

The target of a threshold that passes the check is finite. Taking it from a score, dividing by the
strength and cutting at zero and one each keep the order of scores, infinities and rounding
included, and turn the order of thresholds around. Where the strength is zero there is nothing to
divide by; the score then jumps at the threshold.
-/

namespace CodeComplexity

open Double

/-- Some configuration that passes the check has this threshold and this strength. -/
def Config.Admits (threshold epsilon : Float) : Prop :=
  ∃ c : Config, c.validate = .ok () ∧ c.parameters.threshold = threshold ∧
    c.parameters.epsilon = epsilon

/-- These are the finite ones above zero, and the finite ones not below it. -/
lemma Config.admits_iff {threshold epsilon : Float} : Config.Admits threshold epsilon ↔
    (threshold.isFinite ∧ 0.0 < threshold) ∧ epsilon.isFinite ∧ 0.0 ≤ epsilon := by
  constructor
  · rintro ⟨c, hc, rfl, rfl⟩
    have hparameters := (validate_eq_ok_iff.1 hc).parameters
    exact ⟨hparameters.threshold, hparameters.epsilon⟩
  · rintro ⟨hthreshold, hepsilon⟩
    obtain ⟨⟨-, -, hweights⟩, hmatrices, hprofiles⟩ := validate_eq_ok_iff.1 validate_default
    let c : Config :=
      { Config.default with parameters := { Parameters.default with threshold, epsilon } }
    have hc : c.validate = .ok () :=
      validate_eq_ok_iff.2 ⟨⟨hepsilon, hthreshold, hweights⟩, hmatrices, hprofiles⟩
    exact ⟨c, hc, rfl, rfl⟩

/-- Of two numbers the greater one has no better verdict. -/
lemma ConvergenceStatus.severity_ofScore_mono {x y : Float} (h : value x ≤ value y) :
    (ofScore x false).severity ≤ (ofScore y false).severity := by
  simp only [ofScore, Bool.false_eq_true, if_false, apply_ite severity]
  refine ite_lt_mono h (by decide) (by split_ifs <;> decide) ?_
  exact ite_lt_mono h (by decide) (by decide) (by decide)

namespace Convergence

variable {s s' threshold threshold' epsilon : Float}

lemma convergenceScore_judged (s threshold epsilon : Float) :
    (judged s threshold epsilon).convergenceScore =
      Rounding.toPlaces (scoreOf s threshold epsilon) 3 := rfl

lemma status_judged_ne_oscillating : (judged s threshold epsilon).status ≠ .oscillating := by
  rw [status_judged]
  simp only [ConvergenceStatus.ofScore, Bool.false_eq_true, if_false]
  split_ifs <;> simp

/-! ### Without a strength -/

lemma status_of_zero (ht : threshold.isFinite) (he : epsilon.isFinite)
    (h : (epsilon == 0.0) = true) :
    (judged s threshold epsilon).status = if threshold < s then .violation else .review := by
  obtain ⟨htarget, hreal⟩ := target_zero ht he h
  have hlt : threshold - epsilon < s ↔ threshold < s := by
    rw [lt_iff, lt_iff, value_of_isFinite htarget, value_of_isFinite ht, hreal,
      not_isNaN_of_isFinite htarget, not_isNaN_of_isFinite ht]
  rw [status_judged, scoreOf_zero h]
  simp only [hlt]
  split_ifs
  exacts [by decide, by decide]

/-! ### Admitted parameters -/

section Admitted

variable (h : Config.Admits threshold epsilon)

include h

lemma isFinite_target : (threshold - epsilon).isFinite := by
  obtain ⟨⟨ht, ht0⟩, he, he0⟩ := Config.admits_iff.1 h
  refine (real_sub ht he (real_pos ht ht0).le ?_).1
  rwa [le_iff_real rfl he, real_zero] at he0

lemma strength_zero_or_pos : (epsilon == 0.0) = true ∨ 0.0 < epsilon := by
  obtain ⟨-, he, he0⟩ := Config.admits_iff.1 h
  rw [le_iff_real rfl he] at he0
  rw [beq_iff_real he rfl, lt_iff_real rfl he]
  exact he0.eq_or_lt.imp_left Eq.symm

/-- **Greater scores lie no lower in the stretch.** -/
lemma scoreOf_le_scoreOf (hs : s ≤ s') :
    scoreOf s threshold epsilon ≤ scoreOf s' threshold epsilon := by
  obtain ⟨hnumber, hnumber', hle⟩ := le_iff.1 hs
  have htarget := isFinite_target h
  rcases strength_zero_or_pos h with hzero | hpos
  · rw [scoreOf_zero hzero, scoreOf_zero hzero]
    split_ifs with h1 h2
    · decide
    · have hlt := (lt_iff.1 h1).2.2.trans_le hle
      exact absurd ((lt_iff_value (not_isNaN_of_isFinite htarget) hnumber').2 hlt) h2
    · decide
    · decide
  · obtain ⟨-, he, -⟩ := Config.admits_iff.1 h
    rw [scoreOf_pos hpos, scoreOf_pos hpos,
      le_iff_value (not_isNaN_div (not_isNaN_sub_of_isFinite hnumber htarget) he hpos)
        (not_isNaN_div (not_isNaN_sub_of_isFinite hnumber' htarget) he hpos)]
    exact value_div_mono he hpos (value_sub_mono htarget hle)

lemma status_mono_score (hs : s ≤ s') :
    (judged s threshold epsilon).status.severity ≤ (judged s' threshold epsilon).status.severity :=
  ConvergenceStatus.severity_ofScore_mono (le_iff.1 (scoreOf_le_scoreOf h hs)).2.2

lemma convergenceScore_mono (hs : s ≤ s') :
    (judged s threshold epsilon).convergenceScore ≤
      (judged s' threshold epsilon).convergenceScore := by
  obtain ⟨hnumber, hnumber', hle⟩ := le_iff.1 (scoreOf_le_scoreOf h hs)
  rw [convergenceScore_judged, convergenceScore_judged,
    le_iff_value ((Rounding.exact_three.isNaN_toPlaces _).trans hnumber)
      ((Rounding.exact_three.isNaN_toPlaces _).trans hnumber')]
  exact Rounding.exact_three.value_toPlaces_mono hle

/-- Under a greater threshold the target is no smaller, and leaves no more of the score. -/
lemma status_anti_threshold (hpos : 0.0 < epsilon) (h' : Config.Admits threshold' epsilon)
    (hle : threshold ≤ threshold') (hs : s.isFinite) :
    (judged s threshold' epsilon).status.severity ≤
      (judged s threshold epsilon).status.severity := by
  obtain ⟨-, he, -⟩ := Config.admits_iff.1 h
  rw [status_judged, status_judged, scoreOf_pos hpos, scoreOf_pos hpos]
  have htargets := value_sub_mono he (le_iff.1 hle).2.2
  have hoffsets := value_sub_anti hs (isFinite_target h) (isFinite_target h') htargets
  exact ConvergenceStatus.severity_ofScore_mono (value_div_mono he hpos hoffsets)

end Admitted

/-- **Verdicts are monotone.** Let the threshold and the strength be admitted. A greater score,
which may be infinite, has no smaller convergence score, neither before rounding nor after it, and
no better verdict; no convergence score fails to be a number, since the comparison would fail. Under
a positive strength a greater threshold gives a finite score no worse verdict. With no strength
nothing is safe, and a violation is what lies above the threshold. -/
theorem status_mono (threshold epsilon : Float) (h : Config.Admits threshold epsilon) :
    (∀ s, (judged s threshold epsilon).status ≠ .oscillating) ∧
    (∀ s s', s ≤ s' →
      scoreOf s threshold epsilon ≤ scoreOf s' threshold epsilon ∧
      (judged s threshold epsilon).convergenceScore ≤
        (judged s' threshold epsilon).convergenceScore ∧
      (judged s threshold epsilon).status.severity ≤
        (judged s' threshold epsilon).status.severity) ∧
    (0.0 < epsilon → ∀ threshold', Config.Admits threshold' epsilon → threshold ≤ threshold' →
      ∀ s, s.isFinite → (judged s threshold' epsilon).status.severity ≤
        (judged s threshold epsilon).status.severity) ∧
    ((epsilon == 0.0) = true → ∀ s, (judged s threshold epsilon).status ≠ .safe ∧
      ((judged s threshold epsilon).status = .violation ↔ threshold < s)) := by
  refine ⟨fun s => status_judged_ne_oscillating, fun s s' hs => ?scores,
    fun hpos threshold' h' hle s hs => status_anti_threshold h hpos h' hle hs,
    fun hzero s => ?zero⟩
  case scores =>
    exact ⟨scoreOf_le_scoreOf h hs, convergenceScore_mono h hs, status_mono_score h hs⟩
  case zero =>
    obtain ⟨⟨ht, -⟩, he, -⟩ := Config.admits_iff.1 h
    rw [status_of_zero ht he hzero]
    by_cases hlt : threshold < s <;> simp [hlt]

/-- With the usual strength, from one infinity to the other and for a threshold that is raised, and
without a strength. -/
theorem status_mono_infinite :
    (Config.Admits 10.0 2.0 ∧ (-1.0 / 0.0 : Float) ≤ 1.0 / 0.0 ∧
      scoreOf (-1.0 / 0.0) 10.0 2.0 ≤ scoreOf (1.0 / 0.0) 10.0 2.0) ∧
    (Config.Admits 20.0 2.0 ∧ (10.0 : Float) ≤ 20.0 ∧
      (judged 15.0 20.0 2.0).status.severity ≤ (judged 15.0 10.0 2.0).status.severity) ∧
    Config.Admits 10.0 (-0.0) ∧ ((-0.0 : Float) == 0.0) = true ∧
      ((judged 10.5 10.0 (-0.0)).status = .violation ↔ (10.0 : Float) < 10.5) := by
  have h : Config.Admits 10.0 2.0 := Config.admits_iff.2 (by decide)
  have h' : Config.Admits 20.0 2.0 := Config.admits_iff.2 (by decide)
  have h0 : Config.Admits 10.0 (-0.0) := Config.admits_iff.2 (by decide)
  exact ⟨⟨h, by decide, ((status_mono 10.0 2.0 h).2.1 _ _ (by decide)).1⟩,
    ⟨h', by decide, (status_mono 10.0 2.0 h).2.2.1 (by decide) 20.0 h' (by decide) 15.0 rfl⟩,
    h0, by decide, ((status_mono 10.0 (-0.0) h0).2.2.2 (by decide) 10.5).2⟩

end Convergence

end CodeComplexity
