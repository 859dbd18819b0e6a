import CodeComplexity.Proofs.Registry.Validity

/-!
What a registry with replacements holds. Each list is a fold that stops at its first fault; the
fold that never stops says what the registry holds, and the first fault what the error is.
-/

namespace CodeComplexity.Registry

variable {α β : Type}

/-- The value given last for a module type. -/
def latest? (os : List (ModuleType × α)) (t : ModuleType) : Option α :=
  (os.reverse.find? fun o => o.1 = t).map (·.2)

@[simp] lemma latest?_nil (t : ModuleType) : latest? ([] : List (ModuleType × α)) t = none := rfl

lemma latest?_cons (o : ModuleType × α) (os : List (ModuleType × α)) (t : ModuleType) :
    latest? (o :: os) t = (latest? os t).or (if o.1 = t then some o.2 else none) := by
  unfold latest?
  rw [List.reverse_cons, List.find?_append]
  cases os.reverse.find? fun o => o.1 = t with
  | some _ => rfl
  | none => by_cases h : o.1 = t <;> simp [h]

lemma mem_of_latest? {os : List (ModuleType × α)} {t : ModuleType} {a : α}
    (h : latest? os t = some a) : (t, a) ∈ os := by
  obtain ⟨o, ho, rfl⟩ := Option.map_eq_some_iff.1 h
  have ht : o.1 = t := by simpa using List.find?_some ho
  exact ht ▸ List.mem_reverse.1 (List.mem_of_find?_eq_some ho)

lemma exists_latest? {os : List (ModuleType × α)} {t : ModuleType} {a : α} (h : (t, a) ∈ os) :
    ∃ b, latest? os t = some b := by
  have hfind : (os.reverse.find? fun o => o.1 = t).isSome := by
    rw [List.find?_isSome]
    exact ⟨(t, a), List.mem_reverse.2 h, by simp⟩
  obtain ⟨o, ho⟩ := Option.isSome_iff_exists.1 hfind
  exact ⟨o.2, by rw [latest?, ho, Option.map_some]⟩

/-- A fold that checks each entry before it uses it. -/
lemma foldlM_refuse (fault : α → Option ConfigError) (put : β → α → β) (b : β) (os : List α) :
    (os.foldlM (fun b o => do refuse (fault o); return put b o) b : Except ConfigError β) =
      (refuse (os.findSome? fault)).map fun _ => os.foldl put b := by
  induction os generalizing b with
  | nil => rfl
  | cons o rest ih =>
    rw [List.foldlM_cons, List.findSome?_cons]
    cases fault o with
    | some e => rfl
    | none => exact ih (put b o)

/-! ### The registry that the replacements describe -/

/-- The shipped registry with every replacement made, whether it has a fault or not. -/
def replaced (ms : List (ModuleType × InteractionMatrix Float))
    (ps : List (ModuleType × Profile)) : Registry :=
  ps.foldl (fun r o => r.setProfile o.1 o.2) (ms.foldl (fun r o => r.setMatrix o.1 o.2) shipped)

lemma foldl_setMatrix (ms : List (ModuleType × InteractionMatrix Float)) (r : Registry) :
    (∀ t, (ms.foldl (fun r o => r.setMatrix o.1 o.2) r).matrix t =
        (latest? ms t).getD (r.matrix t)) ∧
      (ms.foldl (fun r o => r.setMatrix o.1 o.2) r).profile = r.profile := by
  induction ms generalizing r with
  | nil => simp
  | cons o rest ih =>
    rw [List.foldl_cons]
    refine ⟨fun t => ?_, (ih _).2⟩
    rw [(ih _).1, matrix_setMatrix, latest?_cons]
    cases latest? rest t with
    | some _ => rfl
    | none => by_cases h : t = o.1 <;> simp [h, Ne.symm]

lemma foldl_setProfile (ps : List (ModuleType × Profile)) (r : Registry) :
    (∀ t, (ps.foldl (fun r o => r.setProfile o.1 o.2) r).profile t =
        (latest? ps t).getD (r.profile t)) ∧
      (ps.foldl (fun r o => r.setProfile o.1 o.2) r).matrix = r.matrix := by
  induction ps generalizing r with
  | nil => simp
  | cons o rest ih =>
    rw [List.foldl_cons]
    refine ⟨fun t => ?_, (ih _).2⟩
    rw [(ih _).1, profile_setProfile, latest?_cons]
    cases latest? rest t with
    | some _ => rfl
    | none => by_cases h : t = o.1 <;> simp [h, Ne.symm]

variable (ms : List (ModuleType × InteractionMatrix Float)) (ps : List (ModuleType × Profile))

lemma matrix_replaced (t : ModuleType) :
    (replaced ms ps).matrix t = (latest? ms t).getD t.shippedMatrix := by
  rw [replaced, (foldl_setProfile _ _).2, (foldl_setMatrix _ _).1]
  rfl

lemma profile_replaced (t : ModuleType) :
    (replaced ms ps).profile t = (latest? ps t).getD t.shippedProfile := by
  rw [replaced, (foldl_setProfile _ _).1, (foldl_setMatrix _ _).2]
  rfl

/-! ### Faults of replacements -/

/-- What is wrong with the replacements: the first fault of a matrix, or else of a profile. -/
def overrideFault? : Option ConfigError :=
  (ms.findSome? fun o => matrixFault? o.1 o.2).or (ps.findSome? fun o => profileFault? o.1 o.2)

/-- **The fold in closed form**: the first fault, or else the registry with every replacement. -/
theorem withOverrides_eq :
    withOverrides ms ps = (refuse (overrideFault? ms ps)).map fun _ => replaced ms ps := by
  have hm := foldlM_refuse (fun o => matrixFault? o.1 o.2)
    (fun r (o : ModuleType × InteractionMatrix Float) => r.setMatrix o.1 o.2) shipped ms
  have hp := foldlM_refuse (fun o => profileFault? o.1 o.2)
    (fun r (o : ModuleType × Profile) => r.setProfile o.1 o.2)
    (ms.foldl (fun r o => r.setMatrix o.1 o.2) shipped) ps
  change (ms.foldlM overrideMatrix shipped >>= fun r => ps.foldlM overrideProfile r) = _
  change ms.foldlM overrideMatrix shipped = _ at hm
  change ps.foldlM overrideProfile _ = _ at hp
  rw [hm, overrideFault?]
  cases ms.findSome? fun o => matrixFault? o.1 o.2 with
  | some e => rfl
  | none => exact hp

lemma withOverrides_eq_ok {r : Registry} :
    withOverrides ms ps = .ok r ↔ overrideFault? ms ps = none ∧ r = replaced ms ps := by
  rw [withOverrides_eq]
  cases overrideFault? ms ps <;> simp [Except.map, eq_comm]

lemma withOverrides_eq_error {e : ConfigError} :
    withOverrides ms ps = .error e ↔ overrideFault? ms ps = some e := by
  rw [withOverrides_eq]
  cases overrideFault? ms ps <;> simp [Except.map]

lemma overrideFault?_eq_none :
    overrideFault? ms ps = none ↔
      (∀ o ∈ ms, matrixFault? o.1 o.2 = none) ∧ ∀ o ∈ ps, profileFault? o.1 o.2 = none := by
  simp [overrideFault?]

/-- Replacements without a fault leave a valid registry: whatever is not replaced is shipped. -/
lemma validate_replaced (h : overrideFault? ms ps = none) :
    (replaced ms ps).validate = .ok () := by
  obtain ⟨hm, hp⟩ := (overrideFault?_eq_none ms ps).1 h
  refine validate_eq_ok.2 fun t => ⟨?_, ?_⟩
  · rw [matrix_replaced]
    cases hl : latest? ms t with
    | none => rw [Option.getD_none, matrixFault?_shippedMatrix]
    | some m => rw [Option.getD_some, hm (t, m) (mem_of_latest? hl)]
  · rw [profile_replaced]
    cases hl : latest? ps t with
    | none => rw [Option.getD_none, profileFault?_shippedProfile]
    | some p => rw [Option.getD_some, hp (t, p) (mem_of_latest? hl)]

/-- The fault of the first entry of a list that has one. -/
def FirstFault (fault : α → Option ConfigError) (os : List α) (e : ConfigError) : Prop :=
  ∃ before o after, os = before ++ o :: after ∧ (∀ b ∈ before, fault b = none) ∧ fault o = some e

lemma firstFault_iff {fault : α → Option ConfigError} {os : List α} {e : ConfigError} :
    FirstFault fault os e ↔ os.findSome? fault = some e := by
  rw [List.findSome?_eq_some_iff, FirstFault]
  constructor
  · rintro ⟨before, o, after, rfl, hb, ho⟩
    exact ⟨before, o, after, rfl, ho, hb⟩
  · rintro ⟨before, o, after, rfl, ho, hb⟩
    exact ⟨before, o, after, rfl, hb, ho⟩

/-- **Replacements**: they are accepted exactly if none has a fault; then the last one for each
module type counts, the rest is shipped and the registry is valid. Otherwise the first fault of a
matrix is reported, and without one the first fault of a profile. -/
theorem withOverrides_spec :
    ((∃ r, withOverrides ms ps = .ok r) ↔
      (∀ o ∈ ms, matrixFault? o.1 o.2 = none) ∧ ∀ o ∈ ps, profileFault? o.1 o.2 = none) ∧
    (∀ r, withOverrides ms ps = .ok r →
      (∀ t, r.matrix t = (latest? ms t).getD t.shippedMatrix ∧
        r.profile t = (latest? ps t).getD t.shippedProfile) ∧
      r.validate = .ok ()) ∧
    ∀ e, withOverrides ms ps = .error e ↔
      FirstFault (fun o => matrixFault? o.1 o.2) ms e ∨
      (∀ o ∈ ms, matrixFault? o.1 o.2 = none) ∧
        FirstFault (fun o => profileFault? o.1 o.2) ps e := by
  refine ⟨?accepted, ?content, ?error⟩
  case accepted =>
    simp only [withOverrides_eq_ok, exists_and_left, exists_eq, and_true]
    exact overrideFault?_eq_none ms ps
  case content =>
    intro r h
    obtain ⟨hf, rfl⟩ := (withOverrides_eq_ok ms ps).1 h
    exact ⟨fun t => ⟨matrix_replaced ms ps t, profile_replaced ms ps t⟩, validate_replaced ms ps hf⟩
  case error =>
    intro e
    rw [withOverrides_eq_error, firstFault_iff, firstFault_iff, ← List.findSome?_eq_none_iff,
      overrideFault?, Option.or_eq_some_iff]

end CodeComplexity.Registry
