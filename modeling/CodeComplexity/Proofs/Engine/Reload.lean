import CodeComplexity.Proofs.Config.Form
import CodeComplexity.Proofs.Config.Refusal
import CodeComplexity.Proofs.Engine.Isolation

/-!
Saving the configuration of an engine and making an engine of what was saved.

Only finite numbers have a form, so the configuration must not hold others. The parameters are
checked for that as a whole; a matrix or an interval only when the registry is built, under a key
that names a module type. The check of the keys is what makes the second check reach all of them.
-/

namespace CodeComplexity.Engine

variable {c : Config} {e : Engine}

lemma isFinite_of_parameterFault? {p : Parameters} (h : Config.parameterFault? p = none) :
    ∀ x ∈ p.numbers, x.isFinite := by
  obtain ⟨⟨hepsilon, -⟩, ⟨hthreshold, -⟩, hweights⟩ := Config.parameterFault?_eq_none.1 h
  refine List.forall_mem_cons.2 ⟨hepsilon, List.forall_mem_cons.2 ⟨hthreshold, fun x hx => ?_⟩⟩
  obtain ⟨d, rfl⟩ := PerDimension.mem_toList.1 hx
  exact (hweights d).1

lemma isFinite_of_matrix {t : ModuleType} {m : InteractionMatrix Float}
    (h : Registry.matrixFault? t m = none) : ∀ x ∈ m.numbers, x.isFinite := by
  intro x hx
  obtain ⟨row, hrow, hx⟩ := List.mem_flatMap.1 hx
  obtain ⟨i, rfl⟩ := PerDimension.mem_toList.1 hrow
  obtain ⟨j, rfl⟩ := PerDimension.mem_toList.1 hx
  exact Registry.isFinite_of_matrixFault? h i j

/-- What is laid over a profile without a fault is finite, since it is in the profile that results. -/
lemma isFinite_of_override {t : ModuleType} {o : ProfileOverride}
    (h : Registry.profileFault? t (o.apply t.shippedProfile) = none) :
    ∀ x ∈ o.numbers, x.isFinite := by
  intro x hx
  obtain ⟨given, hgiven, hx⟩ := List.mem_flatMap.1 hx
  obtain ⟨d, rfl⟩ := PerDimension.mem_toList.1 hgiven
  obtain ⟨i, hi, hx⟩ := List.mem_flatMap.1 hx
  have hproper := Registry.profileFault?_eq_none.1 h d
  rw [Config.get_apply, Option.mem_toList.1 hi, Option.getD_some, Interval.isProper_eq_true]
    at hproper
  rcases List.mem_pair.1 hx with rfl | rfl
  exacts [hproper.1, hproper.2.1]

/-- **An engine holds finite numbers only.** -/
theorem isFinite_of_ofConfig (h : ofConfig c = .ok e) : ∀ x ∈ c.numbers, x.isFinite := by
  obtain ⟨hvalid, hregistry, -⟩ := ofConfig_eq_ok.1 h
  obtain ⟨hkeys, hmatrices, hprofiles⟩ :=
    Config.registryFault?_eq_none.1 (Config.registry_eq_ok.1 hregistry).1
  refine List.forall_mem_append.2 ⟨List.forall_mem_append.2 ⟨?parameters, ?matrices⟩, ?profiles⟩
  case parameters => exact isFinite_of_parameterFault? (Config.validate_eq_ok.1 hvalid).1
  case matrices =>
    intro x hx
    obtain ⟨⟨k, m⟩, hm, hx⟩ := List.mem_flatMap.1 hx
    have hget := NameMap.get?_eq_some.2 hm
    obtain ⟨t, rfl⟩ := hkeys k (.inl (NameMap.mem_keys.2 ⟨m, hget⟩))
    exact isFinite_of_matrix (hmatrices t m hget) x hx
  case profiles =>
    intro x hx
    obtain ⟨⟨k, o⟩, ho, hx⟩ := List.mem_flatMap.1 hx
    have hget := NameMap.get?_eq_some.2 ho
    obtain ⟨t, rfl⟩ := hkeys k (.inr (NameMap.mem_keys.2 ⟨o, hget⟩))
    exact isFinite_of_override (hprofiles t o hget) x hx

/-- **An engine survives saving and reloading its configuration.** All numbers in it are finite, so
its form says all there is; read back it is the same configuration, and the engine made of it is the
same engine: it holds the same registry and parameters and reports the same on every unit. So it is
for the text of the form, whatever reads it, as long as the text reads as the form. -/
theorem reload_spec (h : ofConfig c = .ok e) :
    (∀ x ∈ e.config.numbers, x.isFinite) ∧
    Config.ofDocument? (Config.surplusIn .json) e.config.toDocument = some e.config ∧
    ofConfig e.config = .ok e ∧
    ∀ (r : ConfigReader) (content : String), r.json? content = some e.config.toDocument →
      r.parse .json content = .ok e.config ∧ (r.parse .json content).bind ofConfig = .ok e := by
  obtain ⟨hvalid, -, rfl⟩ := ofConfig_eq_ok.1 h
  have hfinite := isFinite_of_ofConfig h
  have hform := Config.ofDocument?_toDocument (Config.surplusIn .json) hfinite
  refine ⟨hfinite, hform, h, fun r content hcontent => ?_⟩
  have hsaid : r.said? .json content = some e.config := by
    rw [ConfigReader.said?, ConfigReader.document?, hcontent, Option.bind_some, hform]
  have hparse := ConfigReader.parse_eq_ok.2 ⟨hsaid, hvalid⟩
  exact ⟨hparse, hparse ▸ h⟩

/-- A configuration that says something in every part. -/
def tailored : Config where
  parameters := ⟨0.5, 12.25, .const 1.5⟩
  matrices := NameMap.empty.insert ModuleType.lib.name .identity
  profiles := NameMap.empty.insert ModuleType.api.name
    { PerDimension.const none with control := some ⟨0.0, 20.0⟩ }
  inferUnknown := false

def tailoredJson : String := "\x7b
  \"scoring\": \x7b\"epsilon\": 0.5, \"threshold\": 12.25, \"weights\":
    \x7b\"control\": 1.5, \"nesting\": 1.5, \"state\": 1.5, \"async\": 1.5, \"coupling\": 1.5\x7d\x7d,
  \"matrices\": \x7b\"lib\": \x7b\"rows\":
    [[1.0, 0.0, 0.0, 0.0, 0.0], [0.0, 1.0, 0.0, 0.0, 0.0], [0.0, 0.0, 1.0, 0.0, 0.0],
      [0.0, 0.0, 0.0, 1.0, 0.0], [0.0, 0.0, 0.0, 0.0, 1.0]]\x7d\x7d,
  \"profiles\": \x7b\"api\": \x7b\"control\": [0.0, 20.0], \"nesting\": null, \"state\": null,
    \"async\": null, \"coupling\": null\x7d\x7d,
  \"inference\": \x7b\"infer_unknown\": false\x7d\x7d"

set_option maxRecDepth 10000 in
lemma read?_tailoredJson : Document.Json.read? tailoredJson = some tailored.toDocument := by
  -- The characters are named first: the string itself takes long to evaluate.
  refine Document.Json.read?_eq_some_of_toList String.toList_ofList ?_
  with_unfolding_all rfl

/-- One matrix, one interval and other parameters than the shipped ones, saved and reloaded. -/
theorem reload_tailored :
    let e : Engine := ⟨tailored.configured, tailored⟩
    ofConfig tailored = .ok e ∧
    (∀ x ∈ tailored.numbers, x.isFinite) ∧
    Config.ofDocument? .refused tailored.toDocument = some tailored ∧
    Document.Json.read? tailoredJson = some tailored.toDocument ∧
    Config.parse .json tailoredJson = .ok tailored ∧
    (Config.parse .json tailoredJson).bind ofConfig = .ok e := by
  intro e
  have h : ofConfig tailored = .ok e :=
    ofConfig_configured (by decide +kernel) (by decide +kernel)
  obtain ⟨hfinite, hform, -, htext⟩ := reload_spec h
  obtain ⟨hparse, hreload⟩ := htext .standard tailoredJson read?_tailoredJson
  exact ⟨h, hfinite, hform, read?_tailoredJson, hparse, hreload⟩

end CodeComplexity.Engine
