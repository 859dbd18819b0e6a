import CodeComplexity.Engine
import CodeComplexity.Proofs.NameMap
import CodeComplexity.Proofs.Registry.Overrides

/-!
The registry of a configuration. Keys are resolved before any content is looked at, so the four
checks (keys of matrices, keys of profiles, matrices, profiles) run one after the other, each by
ascending key; without a fault every module type has its configured values where there are any
and the shipped ones everywhere else.
-/

namespace CodeComplexity.Config

open Registry (refuse latest? replaced overrideFault? withOverrides_eq)

/-! ### Faults of entries -/

def keyFault? (k : String) : Option ConfigError :=
  match ModuleType.ofName? k with
  | some _ => none
  | none => some (.unknownModuleType k)

/-- What is wrong with a configured matrix; nothing if its key is not recognised. -/
def matrixFault? (k : String) (m : InteractionMatrix Float) : Option ConfigError :=
  (ModuleType.ofName? k).bind fun t => Registry.matrixFault? t m

/-- What is wrong with the profile that a configuration makes of a shipped one; nothing if its key
is not recognised. -/
def profileFault? (k : String) (o : ProfileOverride) : Option ConfigError :=
  (ModuleType.ofName? k).bind fun t => Registry.profileFault? t (o.apply t.shippedProfile)

lemma ofName?_eq_some {k : String} {t : ModuleType} :
    ModuleType.ofName? k = some t ↔ t.name = k := by
  refine ⟨ModuleType.name_of_ofName?, ?_⟩
  rintro rfl
  exact ModuleType.ofName?_name t

lemma keyFault?_eq_none {k : String} : keyFault? k = none ↔ ∃ t : ModuleType, t.name = k := by
  simp only [← ofName?_eq_some, keyFault?]
  cases ModuleType.ofName? k <;> simp

lemma matrixFault?_eq_none {k : String} {m : InteractionMatrix Float} :
    matrixFault? k m = none ↔ ∀ t : ModuleType, t.name = k → Registry.matrixFault? t m = none := by
  simp only [← ofName?_eq_some, matrixFault?, Option.bind_eq_none_iff]

lemma profileFault?_eq_none {k : String} {o : ProfileOverride} :
    profileFault? k o = none ↔ ∀ t : ModuleType, t.name = k →
      Registry.profileFault? t (o.apply t.shippedProfile) = none := by
  simp only [← ofName?_eq_some, profileFault?, Option.bind_eq_none_iff]

lemma get_apply (o : ProfileOverride) (p : Profile) (d : Dimension) :
    (o.apply p).get d = (o.get d).getD (p.get d) :=
  PerDimension.get_zipWith _ _ _ _

/-! ### The check of a configuration as a whole -/

lemma discard_resolve (k : String) : (do discard (resolve k)) = refuse (keyFault? k) := by
  unfold resolve keyFault?
  cases ModuleType.ofName? k <;> rfl

/-- The check reports the fault of the parameters, or else the first key that is not recognised. -/
lemma validate_eq (c : Config) :
    c.validate = refuse ((parameterFault? c.parameters).or
      ((c.matrices.keys ++ c.profiles.keys).findSome? keyFault?)) := by
  unfold validate
  simp only [discard_resolve, Registry.forM_refuse, Registry.refuse_then]

lemma validate_eq_ok {c : Config} :
    c.validate = .ok () ↔ parameterFault? c.parameters = none ∧
      ∀ k, k ∈ c.matrices.keys ∨ k ∈ c.profiles.keys → keyFault? k = none := by
  rw [validate_eq, Registry.refuse_eq_ok, Option.or_eq_none_iff, List.findSome?_eq_none_iff]
  simp only [List.mem_append]

/-! ### Resolving a table -/

section Resolving

variable {α β : Type}

/-- The entries of a table by module type; a key that is not recognised is passed over. -/
def resolved (f : ModuleType → α → β) (es : List (String × α)) : List (ModuleType × β) :=
  es.filterMap fun e => (ModuleType.ofName? e.1).map fun t => (t, f t e.2)

lemma resolved_cons (f : ModuleType → α → β) (e : String × α) (es : List (String × α)) :
    resolved f (e :: es) =
      match ModuleType.ofName? e.1 with
      | some t => (t, f t e.2) :: resolved f es
      | none => resolved f es := by
  unfold resolved
  rw [List.filterMap_cons]
  cases ModuleType.ofName? e.1 <;> rfl

lemma mapM_resolve (f : ModuleType → α → β) (es : List (String × α)) :
    (es.mapM fun e => do let t ← resolve e.1; return (t, f t e.2) : Except ConfigError _) =
      (refuse (es.findSome? fun e => keyFault? e.1)).map fun _ => resolved f es := by
  induction es with
  | nil => rfl
  | cons e rest ih =>
    rw [List.mapM_cons, ih, List.findSome?_cons, resolved_cons, keyFault?, resolve]
    cases ModuleType.ofName? e.1 with
    | none => rfl
    | some t => cases rest.findSome? fun e => keyFault? e.1 <;> rfl

lemma mem_resolved {f : ModuleType → α → β} {es : List (String × α)} {t : ModuleType} {b : β} :
    (t, b) ∈ resolved f es ↔ ∃ a, (t.name, a) ∈ es ∧ f t a = b := by
  simp only [resolved, List.mem_filterMap, Option.map_eq_some_iff, Prod.mk.injEq, Prod.exists,
    ofName?_eq_some]
  constructor
  · rintro ⟨k, a, h, u, rfl, rfl, rfl⟩
    exact ⟨a, h, rfl⟩
  · rintro ⟨a, h, rfl⟩
    exact ⟨t.name, a, h, t, rfl, rfl, rfl⟩

/-- A key occurs once, so the value given last for a module type is the value at its name. -/
lemma latest?_resolved (f : ModuleType → α → β) (m : NameMap α) (t : ModuleType) :
    latest? (resolved f m.entries) t = (m.get? t.name).map (f t) := by
  ext b
  rw [Option.map_eq_some_iff]
  constructor
  · intro h
    obtain ⟨a, ha, rfl⟩ := mem_resolved.1 (Registry.mem_of_latest? h)
    exact ⟨a, NameMap.get?_eq_some.2 ha, rfl⟩
  · rintro ⟨a, ha, rfl⟩
    have hmem : (t, f t a) ∈ resolved f m.entries :=
      mem_resolved.2 ⟨a, NameMap.get?_eq_some.1 ha, rfl⟩
    obtain ⟨b, hb⟩ := Registry.exists_latest? hmem
    obtain ⟨a', ha', rfl⟩ := mem_resolved.1 (Registry.mem_of_latest? hb)
    rw [← NameMap.get?_eq_some, ha, Option.some_inj] at ha'
    rw [hb, ha']

lemma findSome?_resolved (f : ModuleType → α → β) (g : ModuleType × β → Option ConfigError)
    (es : List (String × α)) :
    (resolved f es).findSome? g =
      es.findSome? fun e => (ModuleType.ofName? e.1).bind fun t => g (t, f t e.2) := by
  induction es with
  | nil => rfl
  | cons e rest ih =>
    rw [resolved_cons, List.findSome?_cons, ← ih]
    cases ModuleType.ofName? e.1 <;> rfl

end Resolving

/-! ### The registry in closed form -/

def registryFault? (c : Config) : Option ConfigError :=
  (((c.matrices.entries.findSome? fun e => keyFault? e.1).or
    (c.profiles.entries.findSome? fun e => keyFault? e.1)).or
    (c.matrices.entries.findSome? fun e => matrixFault? e.1 e.2)).or
    (c.profiles.entries.findSome? fun e => profileFault? e.1 e.2)

lemma keyFaults_eq_none {α : Type} {m : NameMap α} :
    (m.entries.findSome? fun e => keyFault? e.1) = none ↔ ∀ k ∈ m.keys, keyFault? k = none := by
  rw [NameMap.findSome?_eq_none_iff_get? (f := fun k _ => keyFault? k)]
  simp only [NameMap.mem_keys, forall_exists_index]

lemma registryFault?_eq_none {c : Config} :
    c.registryFault? = none ↔
      (∀ k, k ∈ c.matrices.keys ∨ k ∈ c.profiles.keys → ∃ t : ModuleType, t.name = k) ∧
      (∀ t m, c.matrices.get? (ModuleType.name t) = some m → Registry.matrixFault? t m = none) ∧
      ∀ t o, c.profiles.get? (ModuleType.name t) = some o →
        Registry.profileFault? t (o.apply t.shippedProfile) = none := by
  simp only [registryFault?, Option.or_eq_none_iff, keyFaults_eq_none,
    NameMap.findSome?_eq_none_iff_get?, keyFault?_eq_none, matrixFault?_eq_none,
    profileFault?_eq_none]
  constructor
  · rintro ⟨⟨⟨hm, hp⟩, hmf⟩, hpf⟩
    exact ⟨fun k hk => hk.elim (hm k) (hp k), fun t m h => hmf _ m h t rfl,
      fun t o h => hpf _ o h t rfl⟩
  · rintro ⟨hk, hmf, hpf⟩
    refine ⟨⟨⟨fun k h => hk k (.inl h), fun k h => hk k (.inr h)⟩, ?_⟩, ?_⟩
    · rintro _ m h t rfl
      exact hmf t m h
    · rintro _ o h t rfl
      exact hpf t o h

lemma registryFault?_eq_some {c : Config} {e : ConfigError} :
    c.registryFault? = some e ↔
      c.matrices.LeastFault (fun k _ => keyFault? k) e ∨
      (∀ k ∈ c.matrices.keys, keyFault? k = none) ∧
        (c.profiles.LeastFault (fun k _ => keyFault? k) e ∨
        (∀ k ∈ c.profiles.keys, keyFault? k = none) ∧
          (c.matrices.LeastFault matrixFault? e ∨
          (∀ k m, c.matrices.get? k = some m → matrixFault? k m = none) ∧
            c.profiles.LeastFault profileFault? e)) := by
  rw [registryFault?, Option.or_assoc, Option.or_assoc]
  simp only [Option.or_eq_some_iff, NameMap.findSome?_eq_some_iff_least, keyFaults_eq_none,
    NameMap.findSome?_eq_none_iff_get?,
    ← NameMap.findSome?_eq_some_iff_least (f := fun k _ => keyFault? k)]

/-- The shipped registry with whatever a configuration says about the eight module types. -/
def configured (c : Config) : Registry :=
  replaced (resolved (fun _ m => m) c.matrices.entries)
    (resolved (fun t o => o.apply t.shippedProfile) c.profiles.entries)

lemma overrideFault?_resolved (c : Config) :
    overrideFault? (resolved (fun _ m => m) c.matrices.entries)
      (resolved (fun t o => o.apply t.shippedProfile) c.profiles.entries) =
      (c.matrices.entries.findSome? fun e => matrixFault? e.1 e.2).or
        (c.profiles.entries.findSome? fun e => profileFault? e.1 e.2) := by
  rw [overrideFault?, findSome?_resolved, findSome?_resolved]
  rfl

/-- **The registry in closed form**: the first fault, or else the configured registry. -/
theorem registry_eq (c : Config) :
    c.registry = (refuse c.registryFault?).map fun _ => c.configured := by
  have hm : c.matrixOverrides = _ := mapM_resolve (fun _ m => m) c.matrices.entries
  have hp : c.profileOverrides = _ :=
    mapM_resolve (fun t (o : ProfileOverride) => o.apply t.shippedProfile) c.profiles.entries
  change (c.matrixOverrides >>= fun ms => c.profileOverrides >>= fun ps =>
    Registry.withOverrides ms ps) = _
  rw [hm, hp, registryFault?]
  cases c.matrices.entries.findSome? fun e => keyFault? e.1 with
  | some e => rfl
  | none =>
    cases c.profiles.entries.findSome? fun e => keyFault? e.1 with
    | some e => rfl
    | none =>
      rw [Option.none_or, Option.none_or, ← overrideFault?_resolved]
      exact withOverrides_eq _ _

lemma registry_eq_ok {c : Config} {r : Registry} :
    c.registry = .ok r ↔ c.registryFault? = none ∧ r = c.configured := by
  rw [registry_eq]
  cases c.registryFault? <;> simp [Except.map, eq_comm]

lemma registry_eq_error {c : Config} {e : ConfigError} :
    c.registry = .error e ↔ c.registryFault? = some e := by
  rw [registry_eq]
  cases c.registryFault? <;> simp [Except.map]

/-- What a configuration makes a registry of is valid. -/
lemma validate_configured {c : Config} (h : c.registryFault? = none) :
    c.configured.validate = .ok () := by
  rw [registryFault?, Option.or_assoc, Option.or_eq_none_iff, ← overrideFault?_resolved] at h
  exact Registry.validate_replaced _ _ h.2

lemma matrix_configured (c : Config) (t : ModuleType) :
    c.configured.matrix t = (c.matrices.get? t.name).getD t.shippedMatrix := by
  rw [configured, Registry.matrix_replaced, latest?_resolved]
  simp

lemma profile_configured (c : Config) (t : ModuleType) (d : Dimension) :
    (c.configured.profile t).get d =
      ((c.profiles.get? t.name).bind (·.get d)).getD (t.shippedProfile.get d) := by
  rw [configured, Registry.profile_replaced, latest?_resolved]
  cases c.profiles.get? t.name with
  | none => rfl
  | some o => exact get_apply o _ d

end CodeComplexity.Config
