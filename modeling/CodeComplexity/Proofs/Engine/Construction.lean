import CodeComplexity.Proofs.Config.Parameters
import CodeComplexity.Proofs.Config.Registry

/-!
How an engine comes from a configuration: the checks of the configuration as a whole, then the
registry, and nothing else. The main statement says of every configuration when its registry is
built, what it holds and which fault is reported.
-/

namespace CodeComplexity.Engine

open Config (keyFault?)

lemma ofConfig_eq (c : Config) :
    ofConfig c = c.validate.bind fun _ => c.registry.map fun r => ⟨r, c⟩ := by
  unfold ofConfig
  cases c.validate with
  | error e => rfl
  | ok u => cases c.registry <;> rfl

lemma ofConfig_eq_ok {c : Config} {e : Engine} :
    ofConfig c = .ok e ↔ c.validate = .ok () ∧ c.registry = .ok e.registry ∧ e.config = c := by
  rw [ofConfig_eq]
  obtain ⟨r, c'⟩ := e
  cases hv : c.validate with
  | error _ => simp [Except.bind]
  | ok u =>
    cases c.registry with
    | error _ => simp [Except.bind, Except.map]
    | ok r' => simp [Except.bind, Except.map, eq_comm]

/-- **From a configuration to its registry and engine**: the registry is built exactly if every key
is a module type's name and everything configured is free of faults; it holds what is configured
and is shipped elsewhere. Of several faults that of the least key is reported, keys before contents
and matrices before profiles. The order in which tables were written is immaterial. An engine needs
a configuration that is valid as a whole, and holds it beside its registry. -/
theorem construction_spec (c : Config) :
    ((∃ r, c.registry = .ok r) ↔
      (∀ k, k ∈ c.matrices.keys ∨ k ∈ c.profiles.keys → ∃ t : ModuleType, t.name = k) ∧
      (∀ t m, c.matrices.get? (ModuleType.name t) = some m → Registry.matrixFault? t m = none) ∧
      ∀ t o, c.profiles.get? (ModuleType.name t) = some o →
        Registry.profileFault? t (o.apply t.shippedProfile) = none) ∧
    (∀ r, c.registry = .ok r → ∀ t,
      r.matrix t = (c.matrices.get? t.name).getD t.shippedMatrix ∧
      ∀ d, (r.profile t).get d =
        ((c.profiles.get? t.name).bind (·.get d)).getD (t.shippedProfile.get d)) ∧
    (∀ e, c.registry = .error e ↔
      c.matrices.LeastFault (fun k _ => keyFault? k) e ∨
      (∀ k ∈ c.matrices.keys, keyFault? k = none) ∧
        (c.profiles.LeastFault (fun k _ => keyFault? k) e ∨
        (∀ k ∈ c.profiles.keys, keyFault? k = none) ∧
          (c.matrices.LeastFault Config.matrixFault? e ∨
          (∀ k m, c.matrices.get? k = some m → Config.matrixFault? k m = none) ∧
            c.profiles.LeastFault Config.profileFault? e))) ∧
    (∀ ms ms' ps ps', ms.Perm ms' → ps.Perm ps' → (ms.map (·.1)).Nodup → (ps.map (·.1)).Nodup →
      ofConfig ⟨c.parameters, .ofList ms, .ofList ps, c.inferUnknown⟩ =
        ofConfig ⟨c.parameters, .ofList ms', .ofList ps', c.inferUnknown⟩) ∧
    (∀ e, c.validate = .error e → ofConfig c = .error e) ∧
    (c.validate = .ok () → ofConfig c = c.registry.map fun r => ⟨r, c⟩) ∧
    ∀ e, ofConfig c = .ok e → c.registry = .ok e.registry ∧ e.config = c := by
  refine ⟨?built, ?content, ?error, ?order, ?invalid, ?valid, fun e h => (ofConfig_eq_ok.1 h).2⟩
  case built =>
    simp only [Config.registry_eq_ok, exists_and_left, exists_eq, and_true]
    exact Config.registryFault?_eq_none
  case content =>
    intro r h t
    obtain ⟨-, rfl⟩ := Config.registry_eq_ok.1 h
    exact ⟨c.matrix_configured t, c.profile_configured t⟩
  case error =>
    intro e
    rw [Config.registry_eq_error]
    exact Config.registryFault?_eq_some
  case order =>
    intro ms ms' ps ps' hm hp hms hps
    rw [NameMap.ofList_perm hm hms, NameMap.ofList_perm hp hps]
  case invalid =>
    intro e h
    rw [ofConfig_eq, h]
    rfl
  case valid =>
    intro h
    rw [ofConfig_eq, h]
    rfl

/-- The engines there are: the shipped one, and those of configurations. -/
def Built (e : Engine) : Prop := e = shipped ∨ ∃ c, ofConfig c = .ok e

/-- The parameters of an engine have been checked. -/
lemma Built.parameterFault? {e : Engine} (h : e.Built) :
    Config.parameterFault? e.config.parameters = none := by
  rcases h with rfl | ⟨c, hc⟩
  · exact Config.parameterFault?_default
  · obtain ⟨hvalid, -, rfl⟩ := ofConfig_eq_ok.1 hc
    exact (Config.validate_eq_ok.1 hvalid).1

/-- The registry of an engine is valid. -/
lemma Built.validate {e : Engine} (h : e.Built) : e.registry.validate = .ok () := by
  rcases h with rfl | ⟨c, hc⟩
  · exact Registry.validate_shipped
  · obtain ⟨hfault, hregistry⟩ := Config.registry_eq_ok.1 (ofConfig_eq_ok.1 hc).2.1
    rw [hregistry]
    exact Config.validate_configured hfault

end CodeComplexity.Engine
