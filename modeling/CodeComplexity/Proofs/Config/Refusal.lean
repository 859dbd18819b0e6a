import CodeComplexity.Form.Config
import CodeComplexity.Proofs.Config.Registry

/-!
Where a configuration is refused: when its text is read, when it is checked as a whole, or when its
registry is built. Each of the three has errors of its own.
-/

namespace CodeComplexity

/-- The three steps from a text to a registry. -/
inductive ConfigStage
  | reading
  | checking
  | building
  deriving DecidableEq, Repr

def ConfigError.stage : ConfigError → ConfigStage
  | malformed _ => .reading
  | unknownModuleType _ | invalidWeight .. | invalidEpsilon _ | invalidThreshold _ => .checking
  | nonFiniteEntry .. | asymmetricMatrix .. | nonPositiveDiagonal .. | improperInterval .. =>
    .building

namespace Config

variable {c : Config} {e : ConfigError}

lemma stage_of_parameterFault? {p : Parameters} (h : parameterFault? p = some e) :
    e.stage = .checking := by
  unfold parameterFault? at h
  split_ifs at h
  · cases h
    rfl
  · cases h
    rfl
  · obtain ⟨d, -, rfl⟩ := Option.map_eq_some_iff.1 h
    rfl

lemma stage_of_keyFault? {k : String} (h : keyFault? k = some e) : e.stage = .checking := by
  unfold keyFault? at h
  split at h
  · cases h
  · cases h
    rfl

lemma stage_of_matrixFault? {t : ModuleType} {m : InteractionMatrix Float}
    (h : Registry.matrixFault? t m = some e) : e.stage = .building := by
  unfold Registry.matrixFault? at h
  split at h
  · cases h
    rfl
  · split at h
    · cases h
      rfl
    · obtain ⟨d, -, rfl⟩ := Option.map_eq_some_iff.1 h
      rfl

lemma stage_of_profileFault? {t : ModuleType} {p : Profile}
    (h : Registry.profileFault? t p = some e) : e.stage = .building := by
  obtain ⟨d, -, rfl⟩ := Option.map_eq_some_iff.1 h
  rfl

lemma stage_of_validate (h : c.validate = .error e) : e.stage = .checking := by
  rw [validate_eq, Registry.refuse_eq_error, Option.or_eq_some_iff] at h
  rcases h with h | ⟨-, h⟩
  · exact stage_of_parameterFault? h
  · obtain ⟨k, -, hk⟩ := List.exists_of_findSome?_eq_some h
    exact stage_of_keyFault? hk

end Config

/-! ### Texts -/

namespace ConfigReader

variable {r : ConfigReader} {format : ConfigFormat} {content : String} {c : Config}

/-- What a text says, unchecked. -/
def said? (r : ConfigReader) (format : ConfigFormat) (content : String) : Option Config :=
  (r.document? format content).bind (Config.ofDocument? (Config.surplusIn format))

lemma read_eq (r : ConfigReader) (format : ConfigFormat) (content : String) :
    r.read format content = match r.said? format content with
      | some c => .ok c
      | none => .error (.malformed format) := rfl

lemma parse_eq (r : ConfigReader) (format : ConfigFormat) (content : String) :
    r.parse format content = match r.said? format content with
      | some c => c.validate.map fun _ => c
      | none => .error (.malformed format) := by
  rw [parse, read_eq]
  cases r.said? format content with
  | none => rfl
  | some c =>
    change (c.validate.bind fun _ => Except.ok c) = c.validate.map fun _ => c
    cases c.validate <;> rfl

lemma parse_eq_ok :
    r.parse format content = .ok c ↔ r.said? format content = some c ∧ c.validate = .ok () := by
  rw [parse_eq]
  cases r.said? format content with
  | none => simp
  | some d =>
    cases hv : d.validate with
    | error e =>
      have hne : c.validate = .ok () → d ≠ c := by
        rintro hc rfl
        exact absurd (hv.symm.trans hc) (by simp)
      simpa [Except.map, hv] using fun h hc => hne hc h
    | ok _ =>
      simp only [Except.map, hv, Except.ok.injEq, Option.some_inj]
      exact ⟨fun h => ⟨h, h ▸ hv⟩, And.left⟩

/-- A text is malformed exactly if nothing can be read from it. -/
lemma parse_eq_malformed :
    r.parse format content = .error (.malformed format) ↔ r.said? format content = none := by
  rw [parse_eq]
  cases r.said? format content with
  | none => simp
  | some d =>
    cases hv : d.validate with
    | error e =>
      have hstage := Config.stage_of_validate hv
      simp only [Except.map, hv, Except.error.injEq, reduceCtorEq, iff_false]
      rintro rfl
      exact ConfigStage.noConfusion hstage
    | ok _ => simp [Except.map, hv]

end ConfigReader

end CodeComplexity
