import CodeComplexity.Directory
import CodeComplexity.Proofs.Config.Refusal
import CodeComplexity.Proofs.Engine.Isolation

/-!
Which configuration a directory yields, and how making an engine of it can fail.

Whatever is wrong with a file before its registry is built sends the search on to the next one, and
in the end to the shipped configuration. What comes out is therefore always valid as a whole, and
only its matrices and profiles can still be at fault.
-/

namespace CodeComplexity

/-! ### Building a checked configuration -/

namespace Config

variable {c : Config} {e : ConfigError}

/-- Once the keys are recognised, the tables are at fault exactly if they make an invalid registry:
a fault of an override is one of the entry that it becomes. -/
lemma validate_configured_iff (h : c.validate = .ok ()) :
    c.configured.validate = .ok () ↔ c.registryFault? = none := by
  refine ⟨fun hr => registryFault?_eq_none.2 ⟨fun k hk => ?_, fun t m hm => ?_, fun t o ho => ?_⟩,
    validate_configured⟩
  · exact keyFault?_eq_none.1 ((validate_eq_ok.1 h).2 k hk)
  · have hentry := (Registry.validate_eq_ok.1 hr t).1
    rwa [matrix_configured, hm, Option.getD_some] at hentry
  · have hentry := (Registry.validate_eq_ok.1 hr t).2
    have hprofile : c.configured.profile t = o.apply t.shippedProfile :=
      PerDimension.ext_get fun d => by rw [profile_configured, ho, get_apply, Option.bind_some]
    rwa [hprofile] at hentry

/-- With its keys recognised, a configuration is refused for what its tables hold or not at all. -/
lemma stage_of_registry (h : c.validate = .ok ()) (he : c.registry = .error e) :
    e.stage = .building := by
  obtain ⟨-, hkeys⟩ := validate_eq_ok.1 h
  rw [registry_eq_error, registryFault?, keyFaults_eq_none.2 fun k hk => hkeys k (.inl hk),
    keyFaults_eq_none.2 fun k hk => hkeys k (.inr hk), Option.none_or, Option.none_or,
    Option.or_eq_some_iff] at he
  rcases he with he | ⟨-, he⟩
  · obtain ⟨entry, -, hfault⟩ := List.exists_of_findSome?_eq_some he
    obtain ⟨t, -, hfault⟩ := Option.bind_eq_some_iff.1 hfault
    exact stage_of_matrixFault? hfault
  · obtain ⟨entry, -, hfault⟩ := List.exists_of_findSome?_eq_some he
    obtain ⟨t, -, hfault⟩ := Option.bind_eq_some_iff.1 hfault
    exact stage_of_profileFault? hfault

end Config

/-! ### The search -/

namespace ConfigReader

variable {r : ConfigReader} {format : ConfigFormat} {file : FileState} {d : Directory} {c : Config}

/-- A file holds a configuration that can be read and is valid. -/
def Holds (r : ConfigReader) (format : ConfigFormat) (file : FileState) (c : Config) : Prop :=
  ∃ content, file = .text content ∧ r.parse format content = .ok c

lemma configOf?_eq_some : r.configOf? format file = some c ↔ r.Holds format file c := by
  cases file with
  | text content =>
    have htext : r.configOf? format (.text content) = (r.parse format content).toOption := rfl
    cases hparse : r.parse format content <;>
      simp [htext, hparse, Holds, Except.toOption]
  | absent => simp [configOf?, FileState.content?, Holds]
  | directory => simp [configOf?, FileState.content?, Holds]
  | binary => simp [configOf?, FileState.content?, Holds]

/-- The first file counts if it holds a configuration, then the second, then neither. -/
lemma config_eq_iff :
    r.config d = c ↔ r.Holds .toml d.toml c ∨
      (∀ c', ¬r.Holds .toml d.toml c') ∧
        (r.Holds .json d.json c ∨ (∀ c', ¬r.Holds .json d.json c') ∧ c = .default) := by
  simp only [config, ← configOf?_eq_some, ← Option.eq_none_iff_forall_ne_some]
  cases r.configOf? .toml d.toml with
  | some t => simp
  | none => cases r.configOf? .json d.json <;> simp [eq_comm]

lemma validate_config (r : ConfigReader) (d : Directory) : (r.config d).validate = .ok () := by
  have hvalid {format file c} (h : r.Holds format file c) : c.validate = .ok () := by
    obtain ⟨content, -, hparse⟩ := h
    exact (parse_eq_ok.1 hparse).2
  rcases config_eq_iff.1 (rfl : r.config d = r.config d) with h | ⟨-, h | ⟨-, h⟩⟩
  · exact hvalid h
  · exact hvalid h
  · rw [h]
    exact Config.validate_default

end ConfigReader

namespace Engine

variable {r : ConfigReader} {d : Directory} {e : ConfigError}

lemma ofDirectoryWith_eq (r : ConfigReader) (d : Directory) :
    ofDirectoryWith r d = (r.config d).registry.map fun registry => ⟨registry, r.config d⟩ := by
  rw [ofDirectoryWith, ofConfig_eq, r.validate_config d]
  rfl

lemma ofDirectoryWith_eq_error :
    ofDirectoryWith r d = .error e ↔ (r.config d).registry = .error e := by
  rw [ofDirectoryWith_eq]
  cases (r.config d).registry <;> simp [Except.map]

/-- **From a directory to an engine**, whatever stands under the two names and whatever reads it.
The first file gives the configuration if it can be read and is valid, else the second if that is,
else the shipped one is taken, so that the configuration is always valid. Making an engine of it
fails exactly if the registry that it describes is invalid, and only with the fault of a matrix or a
profile: no trouble with reading a text, with a key or with the parameters is ever reported. Once
the first file gives the configuration the second is immaterial, even if no engine comes of the
first. -/
theorem ofDirectory_spec (r : ConfigReader) (d : Directory) :
    (∀ c, r.config d = c ↔ r.Holds .toml d.toml c ∨
      (∀ c', ¬r.Holds .toml d.toml c') ∧
        (r.Holds .json d.json c ∨ (∀ c', ¬r.Holds .json d.json c') ∧ c = .default)) ∧
    (r.config d).validate = .ok () ∧
    ofDirectoryWith r d = (r.config d).registry.map (fun registry => ⟨registry, r.config d⟩) ∧
    ((∃ e, ofDirectoryWith r d = .error e) ↔ (r.config d).configured.validate ≠ .ok ()) ∧
    (∀ e, ofDirectoryWith r d = .error e → e.stage = .building) ∧
    ∀ c, r.Holds .toml d.toml c →
      ∀ json, ofDirectoryWith r ⟨d.toml, json⟩ = ofDirectoryWith r d := by
  refine ⟨fun c => ConfigReader.config_eq_iff, r.validate_config d, ofDirectoryWith_eq r d, ?fails,
    ?stage, ?first⟩
  case fails =>
    simp only [ofDirectoryWith_eq_error, Config.registry_eq_error]
    rw [Ne, Config.validate_configured_iff (r.validate_config d), ← Option.ne_none_iff_exists']
  case stage =>
    intro e he
    exact Config.stage_of_registry (r.validate_config d) (ofDirectoryWith_eq_error.1 he)
  case first =>
    intro c hc json
    have hjson : r.config ⟨d.toml, json⟩ = c := ConfigReader.config_eq_iff.2 (.inl hc)
    have hd : r.config d = c := ConfigReader.config_eq_iff.2 (.inl hc)
    rw [ofDirectoryWith, ofDirectoryWith, hjson, hd]

example :
    (ofDirectory ⟨.text "[profiles.api]\ncontrol = [3, 1]\n", .text "\x7b\x7d"⟩).map (fun _ => ()) =
      .error (.improperInterval .api .control ⟨3.0, 1.0⟩) := by
  decide +kernel

end Engine

end CodeComplexity
