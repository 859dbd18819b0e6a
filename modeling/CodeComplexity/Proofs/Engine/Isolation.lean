import CodeComplexity.Proofs.Engine.Analysis
import CodeComplexity.Proofs.Engine.Construction

/-!
Which entries of a registry an analysis reads. The score under a module type and the distances from
its profile read the entry of that type alone, the search for the best fit reads those of the known
types, and the search for orphans reads the profiles of the known types. What a configuration says
about any other type cannot be seen in the report.
-/

namespace CodeComplexity

/-! ### Entries -/

/-- Two registries have the same entry for a module type. -/
structure Registry.AgreeAt (r s : Registry) (t : ModuleType) : Prop where
  matrix : r.matrix t = s.matrix t
  profile : r.profile t = s.profile t

section Reading

variable {r s : Registry} {t : ModuleType} (v : ComplexityVector)

lemma Registry.isOrphan_congr (h : ∀ u, u ≠ .unknown → r.profile u = s.profile u) :
    r.isOrphan v = s.isOrphan v := by
  unfold isOrphan
  congr 1
  rw [Bool.eq_iff_iff, List.any_eq_true, List.any_eq_true]
  refine exists_congr fun u => and_congr_right fun hu => ?_
  rw [h u (ModuleType.mem_allKnown.1 hu)]

lemma BestFit.ofVector_congr (h : ∀ u, u ≠ .unknown → r.AgreeAt s u) :
    ofVector r v = ofVector s v := by
  have hdistance (u : ModuleType) (hu : u ≠ .unknown) : distanceTo r v u = distanceTo s v u := by
    rw [distanceTo, distanceTo, (h u hu).matrix, (h u hu).profile]
  have hnearest : nearest (distanceTo r v) = nearest (distanceTo s v) := nearest_congr hdistance
  simp only [ofVector, hnearest, hdistance _ (nearest_ne_unknown _)]

/-- Only whether a unit is an orphan depends on more than the entry of its module type. -/
lemma Deviation.ofVector_eq (h : r.AgreeAt s t) :
    { ofVector r v t with
      isOrphan := (ofVector s v t).isOrphan, status := (ofVector s v t).status } =
    ofVector s v t := by
  simp only [ofVector, h.matrix, h.profile]

lemma Deviation.ofVector_congr (h : r.AgreeAt s t)
    (hknown : ∀ u, u ≠ .unknown → r.profile u = s.profile u) :
    ofVector r v t = ofVector s v t := by
  simp only [ofVector, h.matrix, h.profile, Registry.isOrphan_congr v hknown]

lemma Scorer.score_congr {p q : Scorer} (h : p.registry.AgreeAt q.registry t)
    (hepsilon : p.epsilon = q.epsilon) (hweights : p.weights = q.weights) :
    p.score v t = q.score v t := by
  have hlinear : p.linear v = q.linear v := by rw [linear, linear, hweights]
  have hquadratic : p.quadratic v t = q.quadratic v t := by rw [quadratic, quadratic, h.matrix]
  have hused : p.effectiveEpsilon = q.effectiveEpsilon := by
    rw [effectiveEpsilon, effectiveEpsilon, hepsilon]
  have hlimit : p.registry.rawSumLimit t = q.registry.rawSumLimit t := by
    rw [Registry.rawSumLimit, Registry.rawSumLimit, h.profile]
  have hratio : p.rawSumRatio v t = q.rawSumRatio v t := by
    rw [rawSumRatio, rawSumRatio, hlimit]
  simp only [score, regularization, hlinear, hquadratic, hused, hlimit, hratio]

end Reading

namespace Engine

variable {e f : Engine} {t : ModuleType}

/-- Under one module type, engines with the same parameters that agree about this type differ at
most in the best fit and the deviation they report. -/
lemma analyzeAs_eq (hp : e.config.parameters = f.config.parameters)
    (h : e.registry.AgreeAt f.registry t) (u : CodeUnit) :
    { e.analyzeAs u t with
      bestFit := (f.analyzeAs u t).bestFit, deviation := (f.analyzeAs u t).deviation } =
    f.analyzeAs u t := by
  have hscore : e.score u.vector t = f.score u.vector t :=
    Scorer.score_congr u.vector h (congrArg Parameters.epsilon hp) (congrArg Parameters.weights hp)
  simp only [analyzeAs, hscore, decomposition, recommendations, weights, convergenceRequest, hp]

/-- Engines with the same parameters that agree about a module type and all known ones report the
same under this type. -/
lemma analyzeAs_congr (hp : e.config.parameters = f.config.parameters)
    (h : e.registry.AgreeAt f.registry t)
    (hknown : ∀ s, s ≠ .unknown → e.registry.AgreeAt f.registry s) (u : CodeUnit) :
    e.analyzeAs u t = f.analyzeAs u t := by
  have hfit : (e.analyzeAs u t).bestFit = (f.analyzeAs u t).bestFit :=
    BestFit.ofVector_congr u.vector hknown
  have hdeviation : (e.analyzeAs u t).deviation = (f.analyzeAs u t).deviation :=
    Deviation.ofVector_congr u.vector h fun s hs => (hknown s hs).profile
  rw [← analyzeAs_eq hp h u, ← hfit, ← hdeviation]

end Engine

/-! ### Configurations -/

/-- Two configurations that say the same, but for what their tables hold for one module type. -/
structure Config.DifferAt (t : ModuleType) (c d : Config) : Prop where
  parameters : c.parameters = d.parameters
  inferUnknown : c.inferUnknown = d.inferUnknown
  matrices : ∀ k, k ≠ t.name → c.matrices.get? k = d.matrices.get? k
  profiles : ∀ k, k ≠ t.name → c.profiles.get? k = d.profiles.get? k

lemma ModuleType.name_injective {t u : ModuleType} (h : t.name = u.name) : t = u := by
  simpa using congrArg ofName? h

namespace Engine

variable {c d : Config} {e f : Engine} {t : ModuleType}

lemma ofConfig_configured (hvalid : c.validate = .ok ()) (hfault : c.registryFault? = none) :
    ofConfig c = .ok ⟨c.configured, c⟩ :=
  ofConfig_eq_ok.2 ⟨hvalid, Config.registry_eq_ok.2 ⟨hfault, rfl⟩, rfl⟩

lemma registry_of_ofConfig (hc : ofConfig c = .ok e) : e.registry = c.configured :=
  (Config.registry_eq_ok.1 (ofConfig_eq_ok.1 hc).2.1).2

lemma matrix_congr (hc : ofConfig c = .ok e) (hd : ofConfig d = .ok f) {s : ModuleType}
    (h : c.matrices.get? s.name = d.matrices.get? s.name) :
    e.registry.matrix s = f.registry.matrix s := by
  rw [registry_of_ofConfig hc, registry_of_ofConfig hd, Config.matrix_configured,
    Config.matrix_configured, h]

lemma profile_congr (hc : ofConfig c = .ok e) (hd : ofConfig d = .ok f) {s : ModuleType}
    (h : c.profiles.get? s.name = d.profiles.get? s.name) :
    e.registry.profile s = f.registry.profile s := by
  refine PerDimension.ext_get fun k => ?_
  rw [registry_of_ofConfig hc, registry_of_ofConfig hd, Config.profile_configured,
    Config.profile_configured, h]

lemma agreeAt_of_differAt (hc : ofConfig c = .ok e) (hd : ofConfig d = .ok f)
    (h : Config.DifferAt t c d) {s : ModuleType} (hs : s ≠ t) :
    e.registry.AgreeAt f.registry s :=
  have hname : s.name ≠ t.name := fun heq => hs (ModuleType.name_injective heq)
  ⟨matrix_congr hc hd (h.matrices _ hname), profile_congr hc hd (h.profiles _ hname)⟩

/-- **What is configured for one module type stays there.** Let two configurations differ in their
tables for one type only. If it is the unknown one, the reports on a unit are the same unless the
unit is judged as unknown. Whichever it is, the reports on a unit whose hint is another known type
are the same but for the best fit and the deviation; the deviations are the same but for whether
the unit is an orphan, and even there if the tables of profiles say the same. -/
theorem analyze_differAt (hc : ofConfig c = .ok e) (hd : ofConfig d = .ok f)
    (h : Config.DifferAt t c d) :
    (t = .unknown → ∀ u : CodeUnit, u.hint.isKnown = true ∨ c.inferUnknown = true →
      e.analyze u = f.analyze u) ∧
    (∀ u : CodeUnit, u.hint.isKnown = true → u.hint ≠ t →
      { e.analyze u with
        bestFit := (f.analyze u).bestFit, deviation := (f.analyze u).deviation } = f.analyze u ∧
      { (e.analyze u).deviation with
        isOrphan := (f.analyze u).deviation.isOrphan, status := (f.analyze u).deviation.status } =
          (f.analyze u).deviation ∧
      ((∀ k, c.profiles.get? k = d.profiles.get? k) →
        (e.analyze u).deviation = (f.analyze u).deviation)) := by
  obtain ⟨-, -, rfl⟩ := ofConfig_eq_ok.1 hc
  obtain ⟨-, -, rfl⟩ := ofConfig_eq_ok.1 hd
  refine ⟨?unknown, ?other⟩
  case unknown =>
    rintro rfl u hu
    have hknown (s : ModuleType) (hs : s ≠ .unknown) : e.registry.AgreeAt f.registry s :=
      agreeAt_of_differAt hc hd h hs
    have hfit : e.bestFit u.vector = f.bestFit u.vector := BestFit.ofVector_congr u.vector hknown
    have hresolve :
        e.resolve u.hint (e.bestFit u.vector) = f.resolve u.hint (f.bestFit u.vector) := by
      rw [hfit, resolve, resolve, h.inferUnknown]
    rw [analyze_eq, analyze_eq, ← hresolve]
    exact analyzeAs_congr h.parameters
      (hknown _ (resolve_ne_unknown (e.bestFit_ne_unknown u.vector) hu)) hknown u
  case other =>
    intro u hu hne
    have hagree := agreeAt_of_differAt hc hd h hne
    rw [analyze_eq, analyze_eq, resolve_of_isKnown hu, resolve_of_isKnown hu]
    exact ⟨analyzeAs_eq h.parameters hagree u, Deviation.ofVector_eq u.vector hagree,
      fun hprofiles => Deviation.ofVector_congr u.vector hagree fun s _ =>
        profile_congr hc hd (hprofiles s.name)⟩

/-- Nothing but a profile for one type that admits up to twenty in every dimension. -/
def wideApi : Config :=
  { Config.default with
    profiles := NameMap.empty.insert ModuleType.api.name (.const (some ⟨0.0, 20.0⟩)) }

/-- A unit outside the shipped profile of every known type. -/
def branchingUnit : CodeUnit := ⟨none, ⟨12.0, 4.0, 1.0, 1.0, 1.0⟩, .lib, none, false⟩

/-- A wide profile for one type takes the unit out of the orphans, and nothing else in its report
but the best fit can tell. -/
theorem analyze_wideApi :
    ofConfig .default = .ok ⟨Config.default.configured, .default⟩ ∧
    ofConfig wideApi = .ok ⟨wideApi.configured, wideApi⟩ ∧
    Config.DifferAt .api .default wideApi ∧
    (let r := (⟨Config.default.configured, .default⟩ : Engine).analyze branchingUnit
     let s := (⟨wideApi.configured, wideApi⟩ : Engine).analyze branchingUnit
     { r with bestFit := s.bestFit, deviation := s.deviation } = s ∧
      { r.deviation with
        isOrphan := s.deviation.isOrphan, status := s.deviation.status } = s.deviation ∧
      r.deviation.isOrphan = true ∧ s.deviation.isOrphan = false) := by
  have hc : ofConfig .default = .ok ⟨Config.default.configured, .default⟩ :=
    ofConfig_configured (by decide +kernel) (by decide +kernel)
  have hd : ofConfig wideApi = .ok ⟨wideApi.configured, wideApi⟩ :=
    ofConfig_configured (by decide +kernel) (by decide +kernel)
  have h : Config.DifferAt .api .default wideApi :=
    ⟨rfl, rfl, fun _ _ => rfl, fun k hk => ((NameMap.get?_insert _ _ _ k).trans (if_neg hk)).symm⟩
  obtain ⟨hreport, hdeviation, -⟩ :=
    (analyze_differAt hc hd h).2 branchingUnit rfl (by decide)
  exact ⟨hc, hd, h, hreport, hdeviation, by decide +kernel, by decide +kernel⟩

end Engine

end CodeComplexity
