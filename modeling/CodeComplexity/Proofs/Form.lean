import CodeComplexity.Form.Unit
import CodeComplexity.Proofs.History
import CodeComplexity.Proofs.Numbers

/-!
Every record comes back from its form.

A form keeps everything but numbers that are not finite, which have none. So a record whose numbers
are finite is read back as it was written, whatever else it holds: any names, options present or
absent, lists of any length.
-/

namespace CodeComplexity

open Document

/-! ### Names -/

@[simp] lemma Dimension.ofDocument?_toDocument (d : Dimension) :
    ofDocument? d.toDocument = some d := ofName?_name d

@[simp] lemma ModuleType.ofDocument?_toDocument (t : ModuleType) :
    ofDocument? t.toDocument = some t := congrArg some (ofName_name t)

@[simp] lemma Zone.ofDocument?_toDocument (z : Zone) : ofDocument? z.toDocument = some z :=
  ofName?_name z

@[simp] lemma DeviationStatus.ofDocument?_toDocument (s : DeviationStatus) :
    ofDocument? s.toDocument = some s := ofName?_name s

@[simp] lemma ConvergenceStatus.ofDocument?_toDocument (s : ConvergenceStatus) :
    ofDocument? s.toDocument = some s := ofName?_name s

/-! ### Vectors and profiles -/

lemma PerDimension.mem_toList {α : Type} {v : PerDimension α} {a : α} :
    a ∈ v.toList ↔ ∃ d, v.get d = a := by
  simp [toList]

lemma ComplexityVector.ofDocument?_toDocument (surplus : Surplus) {v : ComplexityVector}
    (h : ∀ x ∈ v.toList, x.isFinite) : ofDocument? surplus (toDocument v) = some v :=
  perDimensionOr?_ofPerDimension surplus zero fun d =>
    toFloat?_ofFloat (h _ (PerDimension.mem_toList.2 ⟨d, rfl⟩))

lemma Interval.ofDocument?_toDocument (surplus : Surplus) {i : Interval} (hmin : i.min.isFinite)
    (hmax : i.max.isFinite) : ofDocument? surplus i.toDocument = some i := by
  simp [ofDocument?, toDocument, row?, toFloat?_ofFloat hmin, toFloat?_ofFloat hmax]

lemma Profile.ofDocument?_toDocument (surplus : Surplus) {p : Profile}
    (h : ∀ x ∈ p.numbers, x.isFinite) : ofDocument? surplus (toDocument p) = some p := by
  refine perDimension?_ofPerDimension surplus fun d => ?_
  have hd : p.get d ∈ p.toList := PerDimension.mem_toList.2 ⟨d, rfl⟩
  exact Interval.ofDocument?_toDocument surplus
    (h _ (List.mem_flatMap.2 ⟨_, hd, List.mem_cons_self⟩))
    (h _ (List.mem_flatMap.2 ⟨_, hd, List.mem_cons_of_mem _ List.mem_cons_self⟩))

/-! ### Records -/

lemma Measurement.ofDocument?_toDocument {m : Measurement} (h : ∀ x ∈ m.numbers, x.isFinite) :
    ofDocument? m.toDocument = some m := by
  obtain ⟨hscore, hvector⟩ := List.forall_mem_cons.1 h
  rw [ofDocument?, toDocument, fields?_table _ (by rfl) (by decide)]
  simp [Fields.required_cons, ComplexityVector.ofDocument?_toDocument _ hvector,
    toFloat?_ofFloat hscore]

lemma TensorScore.ofDocument?_toDocument {s : TensorScore} (h : ∀ x ∈ s.numbers, x.isFinite) :
    ofDocument? s.toDocument = some s := by
  obtain ⟨hnumbers, hvector⟩ := List.forall_mem_append.1 h
  rw [ofDocument?, toDocument, fields?_table _ (by rfl) (by decide)]
  simp only [List.forall_mem_cons] at hnumbers
  simp [Fields.required_cons, ComplexityVector.ofDocument?_toDocument _ hvector,
    toFloat?_ofFloat, hnumbers]

lemma BestFit.ofDocument?_toDocument {b : BestFit} (h : ∀ x ∈ b.numbers, x.isFinite) :
    ofDocument? b.toDocument = some b := by
  simp only [numbers, List.forall_mem_cons] at h
  rw [ofDocument?, toDocument, fields?_table _ (by rfl) (by decide)]
  simp [Fields.required_cons, toFloat?_ofFloat, h]

lemma Deviation.ofDocument?_toDocument {d : Deviation} (h : ∀ x ∈ d.numbers, x.isFinite) :
    ofDocument? d.toDocument = some d := by
  obtain ⟨hnumbers, hvector⟩ := List.forall_mem_append.1 h
  simp only [List.forall_mem_cons] at hnumbers
  have hviolations : (list (d.violations.map Dimension.toDocument)).toList? Dimension.ofDocument? =
      some d.violations := toList?_list fun e _ => e.ofDocument?_toDocument
  rw [ofDocument?, toDocument, fields?_table _ (by rfl) (by decide)]
  simp [Fields.required_cons, ComplexityVector.ofDocument?_toDocument _ hvector, hviolations,
    toFloat?_ofFloat, hnumbers, toBool?]

lemma Decomposition.ofDocument?_toDocument {d : Decomposition} (h : ∀ x ∈ d.numbers, x.isFinite) :
    ofDocument? d.toDocument = some d := by
  simp only [numbers, List.forall_mem_cons] at h
  rw [ofDocument?, toDocument, fields?_table _ (by rfl) (by decide)]
  simp [Fields.required_cons, toFloat?_ofFloat, h, toBool?]

lemma Convergence.ofDocument?_toDocument {c : Convergence} (h : ∀ x ∈ c.numbers, x.isFinite) :
    ofDocument? c.toDocument = some c := by
  simp only [numbers, List.forall_mem_cons] at h
  rw [ofDocument?, toDocument, fields?_table _ (by rfl) (by decide)]
  simp [Fields.required_cons, toFloat?_ofFloat, h]

/-- Only an analysis of finite numbers is read at all. -/
lemma Convergence.isFinite_of_ofDocument? {c a : Convergence}
    (h : ofDocument? c.toDocument = some a) : ∀ x ∈ c.numbers, x.isFinite := by
  rw [ofDocument?, toDocument, fields?_table _ (by rfl) (by decide)] at h
  simp [Fields.required_cons, toFloat?_ofFloat_eq, Option.bind_eq_some_iff] at h
  simp only [numbers, List.forall_mem_cons]
  simp [h]

lemma Recommendation.ofDocument?_toDocument {r : Recommendation} (h : ∀ x ∈ r.numbers, x.isFinite)
    (hpriority : r.priority < priorityBound) : ofDocument? r.toDocument = some r := by
  simp only [numbers, List.forall_mem_cons] at h
  rw [ofDocument?, toDocument, fields?_table _ (by rfl) (by decide)]
  simp [Fields.required_cons, toFloat?_ofFloat, h, toNatBelow?_ofNat hpriority, toText?]

lemma CodeUnit.ofDocument?_toDocument {u : CodeUnit} (h : ∀ x ∈ u.numbers, x.isFinite) :
    ofDocument? u.toDocument = some u := by
  obtain ⟨hvector, hprevious⟩ := List.forall_mem_append.1 h
  have hname : optional? toText? ((u.name.map text).getD null) = some u.name :=
    optional?_getD (by simp) fun _ _ => rfl
  have hmeasurement : optional? Measurement.ofDocument?
      ((u.previous.map Measurement.toDocument).getD null) = some u.previous :=
    optional?_getD (by simp [Measurement.toDocument]) fun m hm =>
      Measurement.ofDocument?_toDocument fun x hx =>
        hprevious x (List.mem_flatMap.2 ⟨m, Option.mem_toList.2 hm, hx⟩)
  rw [ofDocument?, toDocument, fields?_table _ (by rfl) (by decide)]
  simp [Fields.required_cons, Fields.optional_cons, hname, hmeasurement, toBool?,
    ComplexityVector.ofDocument?_toDocument _ hvector]

/-- **Reading undoes writing.** Every record whose numbers are finite is read back as it was: units,
measurements, vectors and profiles, everything in a report, and histories. A priority fits a byte
and a limit sixty-four bits; their readers refuse what does not. -/
theorem readBack_records :
    (∀ u : CodeUnit, (∀ x ∈ u.numbers, x.isFinite) →
      CodeUnit.ofDocument? u.toDocument = some u) ∧
    (∀ m : Measurement, (∀ x ∈ m.numbers, x.isFinite) →
      Measurement.ofDocument? m.toDocument = some m) ∧
    (∀ v : ComplexityVector, (∀ x ∈ v.toList, x.isFinite) →
      ComplexityVector.ofDocument? .refused v.toDocument = some v) ∧
    (∀ p : Profile, (∀ x ∈ p.numbers, x.isFinite) →
      Profile.ofDocument? .refused p.toDocument = some p) ∧
    (∀ s : TensorScore, (∀ x ∈ s.numbers, x.isFinite) →
      TensorScore.ofDocument? s.toDocument = some s) ∧
    (∀ d : Deviation, (∀ x ∈ d.numbers, x.isFinite) →
      Deviation.ofDocument? d.toDocument = some d) ∧
    (∀ b : BestFit, (∀ x ∈ b.numbers, x.isFinite) →
      BestFit.ofDocument? b.toDocument = some b) ∧
    (∀ d : Decomposition, (∀ x ∈ d.numbers, x.isFinite) →
      Decomposition.ofDocument? d.toDocument = some d) ∧
    (∀ c : Convergence, (∀ x ∈ c.numbers, x.isFinite) →
      Convergence.ofDocument? c.toDocument = some c) ∧
    (∀ r : Recommendation, (∀ x ∈ r.numbers, x.isFinite) →
      r.priority < Recommendation.priorityBound →
      Recommendation.ofDocument? r.toDocument = some r) ∧
    ∀ h : History, (∀ x ∈ h.scores, x.isFinite) → h.limit < unsignedBound →
      History.ofDocument? h.toDocument = some h :=
  ⟨fun _ => CodeUnit.ofDocument?_toDocument, fun _ => Measurement.ofDocument?_toDocument,
    fun _ => ComplexityVector.ofDocument?_toDocument .refused,
    fun _ => Profile.ofDocument?_toDocument .refused, fun _ => TensorScore.ofDocument?_toDocument,
    fun _ => Deviation.ofDocument?_toDocument, fun _ => BestFit.ofDocument?_toDocument,
    fun _ => Decomposition.ofDocument?_toDocument, fun _ => Convergence.ofDocument?_toDocument,
    fun _ => Recommendation.ofDocument?_toDocument, fun _ => History.ofDocument?_toDocument⟩

/-- A unit with a name, an earlier measurement and one violation. -/
def measuredUnit : CodeUnit :=
  ⟨some "parse", ⟨12.0, 4.0, 1.0, 0.0, 1.5⟩, .lib, some ⟨.const 1.0, 3.5⟩, true⟩

/-- The unit, the profile it is judged by, and what is reported on it. -/
theorem readBack_measuredUnit :
    let r := Engine.shipped.analyze measuredUnit
    CodeUnit.ofDocument? measuredUnit.toDocument = some measuredUnit ∧
    Profile.ofDocument? .refused (ModuleType.shippedProfile .lib).toDocument =
      some (ModuleType.shippedProfile .lib) ∧
    TensorScore.ofDocument? r.tensor.toDocument = some r.tensor ∧
    (r.deviation.violations = [.control] ∧
      Deviation.ofDocument? r.deviation.toDocument = some r.deviation) ∧
    BestFit.ofDocument? (⟨.lib, 8.744, 0.103⟩ : BestFit).toDocument = some ⟨.lib, 8.744, 0.103⟩ ∧
    Decomposition.ofDocument? r.decomposition.toDocument = some r.decomposition ∧
    (r.recommendations.length = 3 ∧ ∀ a ∈ r.recommendations,
      Recommendation.ofDocument? a.toDocument = some a) ∧
    (r.convergence.isSome = true ∧ ∀ c ∈ r.convergence,
      Convergence.ofDocument? c.toDocument = some c) ∧
    History.ofDocument? (⟨[r.tensor.regularized], 10⟩ : History).toDocument =
      some ⟨[r.tensor.regularized], 10⟩ := by
  intro r
  obtain ⟨hunit, -, -, hprofile, hscore, hdeviation, hfit, hdecomposition, hconvergence, hadvice,
    hhistory⟩ := readBack_records
  refine ⟨hunit _ (by decide +kernel), hprofile _ (by decide +kernel), hscore _ (by decide +kernel),
    ⟨by decide +kernel, hdeviation _ (by decide +kernel)⟩, hfit _ (by decide),
    hdecomposition _ (by decide +kernel), ⟨by decide +kernel, fun a ha => ?_⟩,
    ⟨rfl, fun c hc => hconvergence c ?_⟩, hhistory _ (by decide +kernel) (by decide)⟩
  · exact hadvice a (by revert a; decide +kernel) (by revert a; decide +kernel)
  · revert c
    decide +kernel

end CodeComplexity
