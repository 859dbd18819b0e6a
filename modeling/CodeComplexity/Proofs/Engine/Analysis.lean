import CodeComplexity.Engine
import CodeComplexity.Proofs.BestFit

/-!
One analysis is about one module type. Once it is settled which, every part of the report is what
the engine's own operation says of the vector under that type, and convergence is asked about the
score as it is reported.
-/

namespace CodeComplexity

lemma ModuleType.isKnown_iff {t : ModuleType} : t.isKnown = true ↔ t ≠ unknown := bne_iff_ne

lemma ConvergenceStatus.ofScore_eq_oscillating {score : Float} {flag : Bool} :
    ofScore score flag = oscillating ↔ flag = true := by
  cases flag with
  | true => exact iff_of_true rfl rfl
  | false =>
    refine iff_of_false ?_ Bool.false_ne_true
    rw [ofScore, if_neg Bool.false_ne_true]
    split_ifs <;> decide

namespace Engine

/-- Every analysis of a unit under one module type. -/
def analyzeAs (e : Engine) (u : CodeUnit) (t : ModuleType) : UnitReport :=
  { name := u.name
    hint := u.hint
    moduleType := t
    bestFit := e.bestFit u.vector
    tensor := e.score u.vector t
    level := (e.score u.vector t).level
    deviation := e.deviation u.vector t
    decomposition := e.decomposition u.vector
    recommendations := e.recommendations u.vector
    convergence := u.previous.map fun before =>
      .ofRequest
        { e.convergenceRequest (e.score u.vector t).regularized with
          step := some (before, u.vector)
          oscillating := u.oscillating } }

variable {e : Engine} {hint : ModuleType} {fit : BestFit}

lemma analyze_eq (e : Engine) (u : CodeUnit) :
    e.analyze u = e.analyzeAs u (e.resolve u.hint (e.bestFit u.vector)) := rfl

lemma bestFit_ne_unknown (e : Engine) (v : ComplexityVector) :
    (e.bestFit v).moduleType ≠ .unknown :=
  BestFit.nearest_ne_unknown _

lemma resolve_of_isKnown (h : hint.isKnown = true) : e.resolve hint fit = hint := if_pos h

lemma resolve_unknown (h : e.config.inferUnknown = true) :
    e.resolve .unknown fit = fit.moduleType := if_pos h

/-- What is resolved is known if the hint is, and always if the type is inferred. -/
lemma resolve_ne_unknown (hfit : fit.moduleType ≠ .unknown)
    (h : hint.isKnown = true ∨ e.config.inferUnknown = true) : e.resolve hint fit ≠ .unknown := by
  unfold resolve
  split_ifs with hknown hinfer
  · exact ModuleType.isKnown_iff.1 hknown
  · exact hfit
  · exact absurd h (not_or.2 ⟨hknown, hinfer⟩)

/-- **Inferring a type is being given it.** Every part of a report is about the module type that the
hint and, if it is not recognised, inference settle, and is what the operation of its own says of
the vector under that type; convergence is about the reported score, under the threshold and the
strength just as configured. So a unit without a recognised hint is judged as if the best fit had
been its hint, and what concerns convergence has no bearing on any other part. -/
theorem analyze_spec (e : Engine) (u : CodeUnit) :
    let r := e.analyze u
    let fit := e.bestFit u.vector
    let t := if u.hint.isKnown then u.hint
      else if e.config.inferUnknown then fit.moduleType else .unknown
    (r.moduleType = t ∧ r.tensor.moduleType = t ∧ r.deviation.moduleType = t ∧
      fit.moduleType ≠ .unknown) ∧
    (r.name = u.name ∧ r.hint = u.hint ∧ r.bestFit = fit ∧ r.tensor = e.score u.vector t ∧
      r.level = .ofScore r.tensor.regularized ∧ r.deviation = e.deviation u.vector t ∧
      r.decomposition = e.decomposition u.vector ∧
      r.recommendations = e.recommendations u.vector) ∧
    (r.convergence.isSome = u.previous.isSome ∧
      ∀ c, r.convergence = some c →
        c.score = r.tensor.regularized ∧
        c.score = Rounding.toPlaces (e.scorer.linear u.vector + e.scorer.quadratic u.vector t +
          e.scorer.regularization u.vector) 2 ∧
        c.threshold = e.config.parameters.threshold ∧
        c.epsilon = e.config.parameters.epsilon ∧
        (c.status = .oscillating ↔ u.oscillating = true)) ∧
    (e.config.inferUnknown = true →
      e.analyze { u with hint := .unknown } =
        { e.analyze { u with hint := fit.moduleType } with hint := .unknown }) ∧
    ∀ name previous oscillating,
      let u' := { u with name := name, previous := previous, oscillating := oscillating }
      e.analyze u' = { r with name := name, convergence := (e.analyze u').convergence } := by
  intro r fit t
  have hfit : fit.moduleType ≠ .unknown := e.bestFit_ne_unknown u.vector
  refine ⟨⟨rfl, rfl, rfl, hfit⟩, ⟨rfl, rfl, rfl, rfl, rfl, rfl, rfl, rfl⟩,
    ⟨Option.isSome_map, ?convergence⟩, ?inferred, fun _ _ _ => rfl⟩
  case convergence =>
    intro c hc
    obtain ⟨before, -, rfl⟩ := Option.map_eq_some_iff.1 hc
    exact ⟨rfl, rfl, rfl, rfl, ConvergenceStatus.ofScore_eq_oscillating⟩
  case inferred =>
    intro hinfer
    rw [analyze_eq, analyze_eq]
    dsimp only
    rw [resolve_unknown hinfer, resolve_of_isKnown (ModuleType.isKnown_iff.2 hfit)]
    rfl

end Engine

end CodeComplexity
