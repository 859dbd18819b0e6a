import CodeComplexity.Proofs.Convergence
import CodeComplexity.Proofs.Engine.Isolation
import CodeComplexity.Proofs.Engine.Overflow
import CodeComplexity.Proofs.Form

/-!
Which convergence analyses come back.

An analysis holds what it was asked, and four numbers that are computed from it. What was asked is
finite; each of the four may run off the range, and the first is infinite by design when the stretch
below the threshold has no length. Such an analysis can be written, but its form cannot be read.
-/

namespace CodeComplexity

open Double

namespace Convergence

variable {v w : ComplexityVector} {s t score threshold epsilon : Float}

/-! ### Without a strength -/

lemma isFinite_scoreOf_zero (hs : score.isFinite) (ht : threshold.isFinite) (he : epsilon.isFinite)
    (h : (epsilon == 0.0) = true) :
    (Rounding.toPlaces (scoreOf score threshold epsilon) 3).isFinite ↔ score ≤ threshold := by
  obtain ⟨htarget, hreal⟩ := target_zero ht he h
  have hlt : threshold - epsilon < score ↔ ¬score ≤ threshold := by
    rw [lt_iff_real htarget hs, hreal, le_iff_real hs ht, not_le]
  rw [scoreOf_zero h, Rounding.toPlaces, Rounding.powerOfTen_three]
  by_cases hle : score ≤ threshold
  · rw [if_neg (hlt.not.2 (not_not.2 hle))]
    exact iff_of_true (by decide +kernel) hle
  · rw [if_pos (hlt.2 hle)]
    exact iff_of_false (by decide +kernel) hle

/-! ### Numbers of moderate size -/

/-- Vectors infinitely far apart have no slope, and close ones count as the same. -/
lemma within_slopeBetween (hv : ∀ d, (v.get d).isFinite) (hw : ∀ d, (w.get d).isFinite)
    (hst : Within 301 (s - t)) : Within 387 (slopeBetween v w s t) := by
  have hdistance : 0.0 ≤ v.euclideanDistance w := zero_le_norm fun d => by
    rw [PerDimension.get_sub]
    exact not_isNaN_sub (hv d) (not_isNaN_of_isFinite (hw d))
  obtain ⟨hnumber, hnonneg⟩ := zero_le_iff.1 hdistance
  unfold slopeBetween
  by_cases hclose : v.euclideanDistance w < slopeTolerance
  · simp only [hclose, if_true]
    exact within_of_fits (by decide)
  simp only [hclose, if_false]
  by_cases htop : value (v.euclideanDistance w) = ⊤
  · have hzero := value_div_infinity hst.abs.finite ((value_eq_top_iff hnumber).1 htop)
    obtain ⟨hfinite, hreal⟩ := isFinite_of_value (hzero.trans EReal.coe_zero.symm)
    exact ⟨hfinite, by rw [hreal, abs_zero]; positivity⟩
  · obtain ⟨hfinite, -⟩ := finite_of_nonneg hnonneg htop
    have htolerance : 2 ^ (-(86 : ℕ) : ℤ) ≤ real slopeTolerance :=
      le_real_of_exceeds (by decide +kernel)
    rw [lt_iff_real hfinite rfl, not_lt] at hclose
    exact hst.abs.div hfinite (htolerance.trans hclose) (by decide)

/-- Away from zero the strength does not throw the score off the range. -/
lemma within_scoreOf (hs : Within 300 score) (ht : Within 300 threshold) (he : Within 300 epsilon)
    (hcase : (epsilon == 0.0) = true ∧ score ≤ threshold ∨ 1e-90 ≤ epsilon) :
    (Rounding.toPlaces (scoreOf score threshold epsilon) 3).isFinite := by
  rcases hcase with ⟨hzero, hle⟩ | hle
  · exact (isFinite_scoreOf_zero hs.finite ht.finite he.finite hzero).2 hle
  · have hsmall : 2 ^ (-(351 : ℕ) : ℤ) ≤ real 1e-90 := le_real_of_exceeds (by decide +kernel)
    have hepsilon := hsmall.trans ((le_iff_real rfl he.finite).1 hle)
    have hpos : 0.0 < epsilon :=
      (lt_iff_real rfl he.finite).2 ((two_zpow_pos _).trans_le hepsilon)
    have hquotient : Within 653 (scoreOf score threshold epsilon) := by
      rw [scoreOf_pos hpos]
      exact ((hs.mono (by decide)).sub (ht.sub he (by decide)) (by decide)).div he.finite hepsilon
        (by decide)
    exact (Rounding.exact_three.within_toPlaces (by decide) hquotient (by decide)).finite

/-! ### Forms of analyses -/

/-- The numbers of an analysis that are computed; the others were asked. -/
def computed (c : Convergence) : List Float :=
  [c.convergenceScore, c.distanceToTarget, c.distanceToThreshold, c.slope]

lemma ofDocument?_toDocument_eq {c : Convergence} (hs : c.score.isFinite)
    (ht : c.threshold.isFinite) (he : c.epsilon.isFinite) :
    ofDocument? c.toDocument = if ∀ x ∈ c.computed, x.isFinite then some c else none := by
  have hnumbers : (∀ x ∈ c.numbers, x.isFinite) ↔ ∀ x ∈ c.computed, x.isFinite := by
    simp [numbers, computed, hs, ht, he]
  split_ifs with h
  · exact ofDocument?_toDocument (hnumbers.2 h)
  · rw [Option.eq_none_iff_forall_ne_some]
    exact fun a ha => h (hnumbers.1 (isFinite_of_ofDocument? ha))

/-- What is asked with moderate numbers is answered with finite ones. -/
lemma isFinite_computed {before : Measurement} {oscillating : Bool}
    (hmoderate : ∀ x ∈ [score, before.score, threshold, epsilon], x.abs ≤ 1e90)
    (hv : ∀ d, (before.vector.get d).isFinite) (hw : ∀ d, (w.get d).isFinite)
    (hcase : (epsilon == 0.0) = true ∧ score ≤ threshold ∨ 1e-90 ≤ epsilon) :
    ∀ x ∈ (ofRequest ⟨score, some threshold, some epsilon, some (before, w), oscillating⟩).computed,
      x.isFinite := by
  simp only [List.forall_mem_cons] at hmoderate
  obtain ⟨hs, hb, ht, he, -⟩ := hmoderate
  have hs := within_of_moderate hs
  have hb := within_of_moderate hb
  have ht := within_of_moderate ht
  have he := within_of_moderate he
  have htarget : Within 302 (score - (threshold - epsilon)) :=
    (hs.mono (by decide)).sub (ht.sub he (by decide)) (by decide)
  have hslope := within_slopeBetween hv hw (hb.sub hs (by decide))
  simp only [computed, List.forall_mem_cons]
  exact ⟨within_scoreOf hs ht he hcase,
    (Rounding.exact_two.within_toPlaces (by decide) htarget (by decide)).finite,
    (Rounding.exact_two.within_toPlaces (by decide) (ht.sub hs (by decide)) (by decide)).finite,
    (Rounding.exact_three.within_toPlaces (by decide) hslope (by decide)).finite, by simp⟩

end Convergence

namespace Engine

/-- **Which convergence analyses come back.** Let a unit have a finite vector, a finite earlier
measurement and a finite score. Its convergence analysis is read back as it was if the four numbers
that are computed are finite, and refused otherwise. With a strength of zero the convergence score
is finite exactly if the score is at most the threshold. All four are finite if nothing goes beyond
`1e90` and the strength is at least `1e-90`, or else zero with a score up to the threshold. -/
theorem readBack_convergence (c : Config) (e : Engine) (hc : ofConfig c = .ok e) (u : CodeUnit)
    (before : Measurement) (hprevious : u.previous = some before)
    (hu : ∀ x ∈ u.numbers, x.isFinite) (hscore : (e.analyze u).tensor.regularized.isFinite) :
    ∃ a, (e.analyze u).convergence = some a ∧ a.score = (e.analyze u).tensor.regularized ∧
      (Convergence.ofDocument? a.toDocument =
        if ∀ x ∈ a.computed, x.isFinite then some a else none) ∧
      ((c.parameters.epsilon == 0.0) = true →
        (a.convergenceScore.isFinite ↔ a.score ≤ c.parameters.threshold)) ∧
      ((∀ x ∈ [a.score, before.score, c.parameters.threshold, c.parameters.epsilon],
          x.abs ≤ 1e90) →
        (c.parameters.epsilon == 0.0) = true ∧ a.score ≤ c.parameters.threshold ∨
          1e-90 ≤ c.parameters.epsilon →
        Convergence.ofDocument? a.toDocument = some a) := by
  obtain ⟨-, -, rfl⟩ := ofConfig_eq_ok.1 hc
  obtain ⟨⟨hepsilon, -⟩, ⟨hthreshold, -⟩, -⟩ :=
    Config.parameterFault?_eq_none.1 (Built.parameterFault? (.inr ⟨_, hc⟩))
  obtain ⟨hvector, hbefore⟩ := List.forall_mem_append.1 hu
  obtain ⟨hbeforeScore, hbeforeVector⟩ : before.score.isFinite ∧
      ∀ x ∈ before.vector.toList, x.isFinite := by
    rw [hprevious] at hbefore
    simpa [Measurement.numbers] using hbefore
  have hsome : (e.analyze u).convergence = some (.ofRequest
      ⟨(e.analyze u).tensor.regularized, some e.config.parameters.threshold,
        some e.config.parameters.epsilon, some (before, u.vector), u.oscillating⟩) := by
    change u.previous.map _ = _
    rw [hprevious]
    rfl
  refine ⟨_, hsome, rfl, ?_⟩
  generalize (e.analyze u).tensor.regularized = score at hscore
  have hform := Convergence.ofDocument?_toDocument_eq (c := .ofRequest ⟨score,
    some e.config.parameters.threshold, some e.config.parameters.epsilon, some (before, u.vector),
    u.oscillating⟩) hscore hthreshold hepsilon
  refine ⟨hform, Convergence.isFinite_scoreOf_zero hscore hthreshold hepsilon,
    fun hmoderate hcase => hform.trans (if_pos ?_)⟩
  exact Convergence.isFinite_computed hmoderate
    (fun d => hbeforeVector _ (PerDimension.mem_toList.2 ⟨d, rfl⟩))
    (fun d => hvector _ (PerDimension.mem_toList.2 ⟨d, rfl⟩)) hcase

/-- The usual strength, which is not small, and a unit of the usual size. -/
theorem readBack_measured :
    let e : Engine := ⟨Config.default.configured, .default⟩
    ofConfig .default = .ok e ∧ measuredUnit.previous = some ⟨.const 1.0, 3.5⟩ ∧
      (∀ x ∈ measuredUnit.numbers, x.isFinite) ∧
      (e.analyze measuredUnit).tensor.regularized.isFinite ∧
      ∃ a, (e.analyze measuredUnit).convergence = some a ∧
        Convergence.ofDocument? a.toDocument = some a := by
  intro e
  have hc : ofConfig .default = .ok e := ofConfig_configured (by decide +kernel) (by decide +kernel)
  have hnumbers : ∀ x ∈ measuredUnit.numbers, x.isFinite := by decide
  have hscore : (e.analyze measuredUnit).tensor.regularized.isFinite ∧
      (e.analyze measuredUnit).tensor.regularized.abs ≤ 1e90 := by
    rw [analyze_eq, resolve_of_isKnown rfl]
    change (e.score _ .lib).regularized.isFinite ∧ (e.score _ .lib).regularized.abs ≤ 1e90
    decide +kernel
  obtain ⟨a, ha, hasked, -, -, hmoderate⟩ :=
    readBack_convergence .default e hc measuredUnit ⟨.const 1.0, 3.5⟩ rfl hnumbers hscore.1
  refine ⟨hc, rfl, hnumbers, hscore.1, a, ha, hmoderate ?_ (.inr (by decide +kernel))⟩
  rw [List.forall_mem_cons, hasked]
  exact ⟨hscore.2, by decide +kernel⟩

/-- A strength of zero, taken as it is. -/
def withoutStrength : Config :=
  { Config.default with parameters := { Parameters.default with epsilon := 0.0 } }

/-- A score above the threshold has an infinite convergence score, which does not come back. -/
theorem not_readBack_withoutStrength :
    let e : Engine := ⟨withoutStrength.configured, withoutStrength⟩
    let u : CodeUnit := ⟨none, .const 1.0, .lib, some ⟨.const 1.0, 3.0⟩, false⟩
    ofConfig withoutStrength = .ok e ∧ (∀ x ∈ u.numbers, x.isFinite) ∧
      (∀ x ∈ (e.analyze u).tensor.numbers, x.isFinite) ∧
      ∃ a, (e.analyze u).convergence = some a ∧ Convergence.ofDocument? a.toDocument = none := by
  intro e u
  refine ⟨ofConfig_configured (by decide +kernel) (by decide +kernel), by decide, ?_, ?_⟩
  · rw [analyze_eq, resolve_of_isKnown rfl]
    change ∀ x ∈ (e.score _ .lib).numbers, x.isFinite
    decide +kernel
  · rw [analyze_eq, resolve_of_isKnown rfl]
    refine ⟨.ofRequest ⟨(e.score u.vector .lib).regularized, some 10.0, some 0.0,
      some (⟨.const 1.0, 3.0⟩, u.vector), false⟩, rfl, ?_⟩
    decide +kernel

end Engine

end CodeComplexity
