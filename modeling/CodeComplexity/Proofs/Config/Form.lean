import CodeComplexity.Form.Config
import CodeComplexity.Proofs.Form
import CodeComplexity.Proofs.NameMap

/-!
Configurations come back from their forms: the parameters, every entry of the two tables, and every
interval that is given or left out, if only all the numbers are finite.
-/

namespace CodeComplexity

open Document

/-! ### Tables keyed by names -/

namespace NameMap

variable {α : Type}

/-- Entries put in one by one in ascending order make the map they came from. -/
lemma ofList_entries (m : NameMap α) : ofList m.entries = m := by
  have hkeys : (m.entries.map (·.1)).Nodup :=
    List.pairwise_map.2 (m.ascending.imp String.ne_of_lt)
  exact eq_of_perm (entries_ofList_perm hkeys)

lemma ofDocument?_toDocument {write : α → Document} {read : Document → Option α} {m : NameMap α}
    (h : ∀ e ∈ m.entries, read (write e.2) = some e.2) :
    ofDocument? read (m.toDocument write) = some m := by
  have hentries : (table (m.entries.map fun e => (e.1, write e.2))).entries? read =
      some m.entries := mapM_map_eq_some fun e he => by rw [h e he, Option.map_some]
  rw [ofDocument?, toDocument, hentries, Option.map_some, ofList_entries]

end NameMap

/-! ### Records -/

lemma Parameters.ofDocument?_toDocument (surplus : Surplus) {p : Parameters}
    (h : ∀ x ∈ p.numbers, x.isFinite) : ofDocument? surplus p.toDocument = some p := by
  simp only [numbers, List.forall_mem_cons] at h
  obtain ⟨hepsilon, hthreshold, hweights⟩ := h
  have hread : weights? surplus p.weights.toDocument = some p.weights :=
    perDimensionOr?_ofPerDimension surplus _ fun d =>
      toFloat?_ofFloat (hweights _ (PerDimension.mem_toList.2 ⟨d, rfl⟩))
  rw [ofDocument?, toDocument, fields?_table _ (by rfl) (by decide)]
  simp [Fields.optional_cons, toFloat?_ofFloat, hepsilon, hthreshold, hread]

lemma InteractionMatrix.ofDocument?_toDocument (surplus : Surplus) {m : InteractionMatrix Float}
    (h : ∀ x ∈ m.numbers, x.isFinite) : ofDocument? surplus (toDocument m) = some m :=
  family?_list surplus fun row hrow => family?_list surplus fun x hx =>
    toFloat?_ofFloat (h x (List.mem_flatMap.2 ⟨row, hrow, hx⟩))

lemma matrixOverride?_matrixOverrideToDocument (surplus : Surplus) {m : InteractionMatrix Float}
    (h : ∀ x ∈ m.numbers, x.isFinite) :
    matrixOverride? surplus (matrixOverrideToDocument m) = some m := by
  rw [matrixOverride?, matrixOverrideToDocument, fields?_table _ (by rfl) (by decide)]
  simp [Fields.required_cons, InteractionMatrix.ofDocument?_toDocument surplus h]

lemma ProfileOverride.ofDocument?_toDocument (surplus : Surplus) {o : ProfileOverride}
    (h : ∀ x ∈ o.numbers, x.isFinite) : ofDocument? surplus o.toDocument = some o := by
  refine perDimensionOr?_ofPerDimension surplus _ fun d => ?_
  refine optional?_getD (by simp [Interval.toDocument]) fun i hi => ?_
  have hnumbers : ∀ x ∈ i.numbers, x.isFinite := fun x hx =>
    h x (List.mem_flatMap.2 ⟨_, PerDimension.mem_toList.2 ⟨d, rfl⟩,
      List.mem_flatMap.2 ⟨i, Option.mem_toList.2 hi, hx⟩⟩)
  simp only [Interval.numbers, List.forall_mem_cons] at hnumbers
  exact Interval.ofDocument?_toDocument surplus hnumbers.1 hnumbers.2.1

/-- **A configuration comes back from its form**, if its numbers are finite. -/
theorem Config.ofDocument?_toDocument (surplus : Surplus) {c : Config}
    (h : ∀ x ∈ c.numbers, x.isFinite) : ofDocument? surplus c.toDocument = some c := by
  obtain ⟨hrest, hprofiles⟩ := List.forall_mem_append.1 h
  obtain ⟨hparameters, hmatrices⟩ := List.forall_mem_append.1 hrest
  have hm : NameMap.ofDocument? (matrixOverride? surplus)
      (c.matrices.toDocument matrixOverrideToDocument) = some c.matrices :=
    NameMap.ofDocument?_toDocument fun e he =>
      matrixOverride?_matrixOverrideToDocument surplus fun x hx =>
        hmatrices x (List.mem_flatMap.2 ⟨e, he, hx⟩)
  have hp : NameMap.ofDocument? (ProfileOverride.ofDocument? surplus)
      (c.profiles.toDocument ProfileOverride.toDocument) = some c.profiles :=
    NameMap.ofDocument?_toDocument fun e he =>
      ProfileOverride.ofDocument?_toDocument surplus fun x hx =>
        hprofiles x (List.mem_flatMap.2 ⟨e, he, hx⟩)
  have hinference : inference? surplus (table [("infer_unknown", bool c.inferUnknown)]) =
      some c.inferUnknown := by
    rw [inference?, fields?_table _ (by rfl) (by decide)]
    simp [Fields.optional_cons, toBool?]
  rw [ofDocument?, toDocument, fields?_table _ (by rfl) (by decide)]
  simp [Fields.optional_cons, Parameters.ofDocument?_toDocument surplus hparameters, hm, hp,
    hinference]

end CodeComplexity
