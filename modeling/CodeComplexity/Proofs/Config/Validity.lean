import CodeComplexity.Proofs.ByteOrder
import CodeComplexity.Proofs.Config.Parameters
import CodeComplexity.Proofs.Config.Refusal

/-!
Which configurations pass the check as a whole, and what is reported of the others.

The check goes through the strength, the threshold, the weights and the keys of the two tables, and
stops at the first fault. Tables list their keys in ascending order, so the key that is reported is
the least one without a module type, whatever else the table holds.
-/

namespace CodeComplexity.Config

variable {α : Type} {k : String} {c : Config} {e : ConfigError}

/-! ### Keys -/

/-- The keys that a table of replacements may have. -/
def typeNames : List String := ["api", "lib", "app", "web", "data", "infra", "deploy", "unknown"]

lemma mem_typeNames : k ∈ typeNames ↔ ∃ t : ModuleType, t.name = k := by
  rw [show typeNames = ModuleType.all.map ModuleType.name from rfl, List.mem_map]
  simp only [ModuleType.mem_all, true_and]

lemma keyFault?_eq_none_iff_mem : keyFault? k = none ↔ k ∈ typeNames :=
  keyFault?_eq_none.trans mem_typeNames.symm

lemma keyFault?_eq_some : keyFault? k = some e ↔ k ∉ typeNames ∧ e = .unknownModuleType k := by
  rw [← keyFault?_eq_none_iff_mem, keyFault?]
  cases ModuleType.ofName? k <;> simp [eq_comm]

/-- The key of a table that names no module type, the least one by bytes. -/
structure LeastUnknown (m : NameMap α) (k : String) : Prop where
  mem : k ∈ m.keys
  unknown : k ∉ typeNames
  least : ∀ l ∈ m.keys, l ∉ typeNames → ¬bytes l < bytes k

lemma findSome?_keyFault?_eq_none {m : NameMap α} :
    m.keys.findSome? keyFault? = none ↔ ∀ k ∈ m.keys, k ∈ typeNames := by
  simp only [List.findSome?_eq_none_iff, keyFault?_eq_none_iff_mem]

/-- A scan of the keys of a table ends at the least one that names no module type. -/
lemma findSome?_keyFault?_eq_some {m : NameMap α} :
    m.keys.findSome? keyFault? = some e ↔ ∃ k, LeastUnknown m k ∧ e = .unknownModuleType k := by
  rw [NameMap.keys, List.findSome?_map]
  refine (NameMap.findSome?_eq_some_iff_least (f := fun k _ => keyFault? k)).trans ?_
  simp only [NameMap.LeastFault, keyFault?_eq_some, ne_eq, keyFault?_eq_none_iff_mem]
  constructor
  · rintro ⟨k, a, hk, ⟨hunknown, rfl⟩, hleast⟩
    refine ⟨k, ⟨NameMap.mem_keys.2 ⟨a, hk⟩, hunknown, fun l hl hl' => ?_⟩, rfl⟩
    obtain ⟨b, hb⟩ := NameMap.mem_keys.1 hl
    rw [← lt_iff_bytes_lt]
    exact String.not_lt.2 (hleast l b hb hl')
  · rintro ⟨k, ⟨hmem, hunknown, hleast⟩, rfl⟩
    obtain ⟨a, hk⟩ := NameMap.mem_keys.1 hmem
    refine ⟨k, a, hk, ⟨hunknown, rfl⟩, fun l b hb hl => String.not_lt.1 ?_⟩
    rw [lt_iff_bytes_lt]
    exact hleast l (NameMap.mem_keys.2 ⟨b, hb⟩) hl

/-! ### The check -/

/-- What the parameters have to be like. -/
structure ValidParameters (p : Parameters) : Prop where
  epsilon : p.epsilon.isFinite ∧ 0.0 ≤ p.epsilon
  threshold : p.threshold.isFinite ∧ 0.0 < p.threshold
  weights : ∀ d, (p.weights.get d).isFinite ∧ 0.0 ≤ p.weights.get d

/-- What a configuration has to be like. -/
structure Admissible (c : Config) : Prop where
  parameters : ValidParameters c.parameters
  matrices : ∀ k ∈ c.matrices.keys, k ∈ typeNames
  profiles : ∀ k ∈ c.profiles.keys, k ∈ typeNames

/-- What is wrong with a configuration, everything that is checked earlier being right. -/
inductive FirstFault (c : Config) : ConfigError → Prop
  | epsilon (h : ¬(c.parameters.epsilon.isFinite ∧ 0.0 ≤ c.parameters.epsilon)) :
    FirstFault c (.invalidEpsilon c.parameters.epsilon)
  | threshold (hepsilon : c.parameters.epsilon.isFinite ∧ 0.0 ≤ c.parameters.epsilon)
    (h : ¬(c.parameters.threshold.isFinite ∧ 0.0 < c.parameters.threshold)) :
    FirstFault c (.invalidThreshold c.parameters.threshold)
  | weight (d : Dimension) (hepsilon : c.parameters.epsilon.isFinite ∧ 0.0 ≤ c.parameters.epsilon)
    (hthreshold : c.parameters.threshold.isFinite ∧ 0.0 < c.parameters.threshold)
    (hbefore : ∀ e, e.index < d.index →
      (c.parameters.weights.get e).isFinite ∧ 0.0 ≤ c.parameters.weights.get e)
    (h : ¬((c.parameters.weights.get d).isFinite ∧ 0.0 ≤ c.parameters.weights.get d)) :
    FirstFault c (.invalidWeight d (c.parameters.weights.get d))
  | matrix (k : String) (hparameters : ValidParameters c.parameters)
    (h : LeastUnknown c.matrices k) : FirstFault c (.unknownModuleType k)
  | profile (k : String) (hparameters : ValidParameters c.parameters)
    (hmatrices : ∀ k ∈ c.matrices.keys, k ∈ typeNames)
    (h : LeastUnknown c.profiles k) : FirstFault c (.unknownModuleType k)

lemma parameterFault?_eq_none_iff_valid {p : Parameters} :
    parameterFault? p = none ↔ ValidParameters p :=
  parameterFault?_eq_none.trans
    ⟨fun ⟨hepsilon, hthreshold, hweights⟩ => ⟨hepsilon, hthreshold, hweights⟩,
      fun h => ⟨h.epsilon, h.threshold, h.weights⟩⟩

lemma validate_eq_ok_iff : c.validate = .ok () ↔ c.Admissible := by
  rw [validate_eq_ok, parameterFault?_eq_none_iff_valid]
  simp only [keyFault?_eq_none_iff_mem]
  constructor
  · rintro ⟨hparameters, hkeys⟩
    exact ⟨hparameters, fun k hk => hkeys k (.inl hk), fun k hk => hkeys k (.inr hk)⟩
  · rintro ⟨hparameters, hmatrices, hprofiles⟩
    exact ⟨hparameters, fun k hk => hk.elim (hmatrices k) (hprofiles k)⟩

lemma validate_eq_error_iff : c.validate = .error e ↔ c.FirstFault e := by
  rw [validate_eq, Registry.refuse_eq_error, Option.or_eq_some_iff, List.findSome?_append,
    Option.or_eq_some_iff, parameterFault?_eq_some, parameterFault?_eq_none_iff_valid,
    findSome?_keyFault?_eq_some, findSome?_keyFault?_eq_some, findSome?_keyFault?_eq_none]
  constructor
  · rintro ((⟨h, rfl⟩ | ⟨hepsilon, ⟨h, rfl⟩ | ⟨hthreshold, d, hd, rfl⟩⟩) |
      ⟨hparameters, ⟨k, h, rfl⟩ | ⟨hmatrices, k, h, rfl⟩⟩)
    · exact .epsilon h
    · exact .threshold hepsilon h
    · obtain ⟨h, hbefore⟩ := invalidWeight?_eq_some.1 hd
      exact .weight d hepsilon hthreshold hbefore h
    · exact .matrix k hparameters h
    · exact .profile k hparameters hmatrices h
  · intro h
    cases h with
    | epsilon h => exact .inl (.inl ⟨h, rfl⟩)
    | threshold hepsilon h => exact .inl (.inr ⟨hepsilon, .inl ⟨h, rfl⟩⟩)
    | weight d hepsilon hthreshold hbefore h =>
      exact .inl (.inr ⟨hepsilon, .inr ⟨hthreshold, d, invalidWeight?_eq_some.2 ⟨h, hbefore⟩, rfl⟩⟩)
    | matrix k hparameters h => exact .inr ⟨hparameters, .inl ⟨k, h, rfl⟩⟩
    | profile k hparameters hmatrices h => exact .inr ⟨hparameters, .inr ⟨hmatrices, k, h, rfl⟩⟩

/-- Weights are valid if nothing that has them is refused for one of them. The other parameters of
what has them may be at fault, and hide what the weights are like; the shipped ones do not. -/
lemma weightsValid_iff_validate {weights : ComplexityVector} : weightsValid weights = true ↔
    ∀ c : Config, c.parameters.weights = weights →
      ∀ d x, c.validate ≠ .error (.invalidWeight d x) := by
  constructor
  · rintro h c rfl d x hc
    rw [validate_eq_error_iff] at hc
    cases hc with
    | weight _ _ _ _ hd => exact hd (weightsValid_eq_true.1 h d)
  · intro h
    by_contra hinvalid
    rw [weightsValid, Option.isNone_iff_eq_none] at hinvalid
    obtain ⟨d, hd⟩ := Option.ne_none_iff_exists'.1 hinvalid
    obtain ⟨hd, hbefore⟩ := invalidWeight?_eq_some.1 hd
    obtain ⟨hepsilon, hthreshold, -⟩ := parameterFault?_eq_none.1 parameterFault?_default
    let c : Config := { Config.default with parameters := { Parameters.default with weights } }
    exact h c rfl d _ (validate_eq_error_iff.2 (.weight d hepsilon hthreshold hbefore hd))

/-- **The check of a configuration.** It is passed exactly by what is admissible, and reports the
first fault of everything else. The weights are valid exactly if no configuration with these weights
is refused for one of them. What is read from a text is admissible, whatever reads it. -/
theorem validate_spec (c : Config) :
    (c.validate = .ok () ↔ c.Admissible) ∧
    (∀ e, c.validate = .error e ↔ c.FirstFault e) ∧
    (weightsValid c.parameters.weights = true ↔
      ∀ c' : Config, c'.parameters.weights = c.parameters.weights →
        ∀ d x, c'.validate ≠ .error (.invalidWeight d x)) ∧
    ∀ (r : ConfigReader) (format : ConfigFormat) (content : String),
      r.parse format content = .ok c → c.Admissible :=
  ⟨validate_eq_ok_iff, fun _ => validate_eq_error_iff, weightsValid_iff_validate,
    fun _ _ _ h => validate_eq_ok_iff.1 (ConfigReader.parse_eq_ok.1 h).2⟩

/-- Names are neither trimmed nor read in another case. -/
example : "api" ∈ typeNames ∧ "API" ∉ typeNames ∧ " api" ∉ typeNames := by decide

end CodeComplexity.Config
