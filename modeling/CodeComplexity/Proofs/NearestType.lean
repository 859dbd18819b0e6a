import CodeComplexity.Proofs.Engine.Isolation
import CodeComplexity.Proofs.Engine.Overflow

/-!
What the search for the nearest module type finds.

The search starts at the first known type and moves on only to what is strictly nearer. Once it
stands on a distance that is a number it keeps to numbers, and ends at the first of the nearest
types. But nothing is nearer than what is no number: if the first distance is none, the search stays
where it started, however near the other types are.
-/

namespace CodeComplexity

open Double

lemma ModuleType.index_injective {s t : ModuleType} (h : s.index = t.index) : s = t := by
  have hplace (t : ModuleType) : all[t.index]? = some t := by cases t <;> rfl
  simpa [hplace] using congrArg (all[·]?) h

namespace BestFit

/-! ### The search -/

/-- Of the types looked at, a first one at the least distance; distances that are no numbers are
passed over. -/
structure FirstNearest (distance : ModuleType → Float) (seen : List ModuleType) (t : ModuleType) :
    Prop where
  mem : t ∈ seen
  isNumber : (distance t).isNaN = false
  least : ∀ s ∈ seen, ¬distance s < distance t
  earlier : ∀ s ∈ seen, s.index < t.index → (distance s).isNaN = true ∨ distance t < distance s

variable {distance : ModuleType → Float} {seen : List ModuleType} {best s t : ModuleType}

lemma FirstNearest.singleton (h : (distance t).isNaN = false) : FirstNearest distance [t] t where
  mem := List.mem_singleton.2 rfl
  isNumber := h
  least := by simp [lt_iff]
  earlier := by simp

/-- One look at a type that comes after those seen. -/
lemma FirstNearest.look (h : FirstNearest distance seen best) (ht : ∀ s ∈ seen, s.index ≤ t.index) :
    FirstNearest distance (seen ++ [t]) (if distance t < distance best then t else best) := by
  by_cases hlt : distance t < distance best
  · obtain ⟨hnumber, -, hvalue⟩ := lt_iff.1 hlt
    rw [if_pos hlt]
    refine ⟨by simp, hnumber, ?least, ?earlier⟩ <;>
      simp only [List.mem_append, List.mem_singleton, or_imp, forall_and, forall_eq]
    case least =>
      refine ⟨fun s hs hst => h.least s hs ?_, fun htt => (lt_iff.1 htt).2.2.false⟩
      obtain ⟨hs, -, hst⟩ := lt_iff.1 hst
      exact lt_iff.2 ⟨hs, h.isNumber, hst.trans hvalue⟩
    case earlier =>
      refine ⟨fun s hs _ => ?_, fun htt => (Nat.lt_irrefl _ htt).elim⟩
      -- what was seen is no nearer than the best before, and that is farther
      cases hsnumber : (distance s).isNaN with
      | true => exact .inl rfl
      | false =>
        have hle := h.least s hs
        rw [lt_iff_value hsnumber h.isNumber, not_lt] at hle
        exact .inr ((lt_iff_value hnumber hsnumber).2 (hvalue.trans_le hle))
  · rw [if_neg hlt]
    refine ⟨by simp [h.mem], h.isNumber, ?least, ?earlier⟩ <;>
      simp only [List.mem_append, List.mem_singleton, or_imp, forall_and, forall_eq]
    case least => exact ⟨h.least, hlt⟩
    case earlier => exact ⟨h.earlier, fun hbefore => absurd (ht best h.mem) hbefore.not_ge⟩

/-- A look at types in their order, one after the other. -/
lemma FirstNearest.run (h : FirstNearest distance seen best) (rest : List ModuleType)
    (hsorted : (seen ++ rest).Pairwise (·.index ≤ ·.index)) :
    FirstNearest distance (seen ++ rest)
      (rest.foldl (fun best t => if distance t < distance best then t else best) best) := by
  induction rest generalizing seen best with
  | nil => rwa [List.append_nil]
  | cons t rest ih =>
    have ht (s : ModuleType) (hs : s ∈ seen) : s.index ≤ t.index :=
      (List.pairwise_append.1 hsorted).2.2 s hs t (List.mem_cons_self ..)
    rw [List.append_cons] at hsorted ⊢
    exact ih (h.look ht) hsorted

/-- **The search ends at the first of the nearest**, if it starts from a number. -/
theorem firstNearest_nearest (h : (distance .api).isNaN = false) :
    FirstNearest distance ModuleType.allKnown (nearest distance) := by
  have hrun := (FirstNearest.singleton h).run ModuleType.allKnown (by decide)
  have hmem (s : ModuleType) : s ∈ [.api] ++ ModuleType.allKnown ↔ s ∈ ModuleType.allKnown := by
    cases s <;> decide
  exact ⟨(hmem _).1 hrun.mem, hrun.isNumber, fun s hs => hrun.least s ((hmem s).2 hs),
    fun s hs => hrun.earlier s ((hmem s).2 hs)⟩

lemma FirstNearest.unique (hs : FirstNearest distance seen s) (ht : FirstNearest distance seen t) :
    s = t := by
  -- of two such types the later one would be farther
  have hle {s t : ModuleType} (hs : FirstNearest distance seen s)
      (ht : FirstNearest distance seen t) : t.index ≤ s.index := by
    by_contra hlt
    rcases ht.earlier s hs.mem (not_le.1 hlt) with hnone | hfarther
    · exact Bool.noConfusion (hs.isNumber.symm.trans hnone)
    · exact hs.least t ht.mem hfarther
  exact ModuleType.index_injective (le_antisymm (hle ht hs) (hle hs ht))

/-- Nothing is nearer than what is no number. -/
lemma nearest_of_isNaN (h : (distance .api).isNaN = true) : nearest distance = .api := by
  refine List.foldlRecOn (motive := (· = ModuleType.api)) _ _ rfl fun best hbest t _ => ?_
  subst hbest
  refine if_neg fun hlt => ?_
  exact Bool.noConfusion ((lt_iff.1 hlt).2.1.symm.trans h)

/-! ### The best fit -/

/-- **The best fit is the first of the nearest types**, measured without rounding. If the distance
to the first known type is no number, it is that type. Otherwise it is the one known type whose
distance is a number that no known type undercuts and that every earlier one exceeds, as far as it
has a distance. The distance is reported rounded, the confidence follows from what is reported, and
the entry of the unknown type has no bearing on any of this. -/
theorem ofVector_firstNearest (r : Registry) (v : ComplexityVector) :
    let d := fun t => v.interactionDistance (r.profile t).centroid (r.matrix t)
    let fit := ofVector r v
    ((d .api).isNaN = true → fit.moduleType = .api) ∧
    ((d .api).isNaN = false → ∀ t, fit.moduleType = t ↔
      t ≠ .unknown ∧ (d t).isNaN = false ∧ (∀ s, s ≠ .unknown → ¬d s < d t) ∧
      ∀ s, s.index < t.index → (d s).isNaN = true ∨ d t < d s) ∧
    fit.distance = Rounding.toPlaces (d fit.moduleType) 3 ∧
    fit.confidence = Rounding.toPlaces (1.0 / (1.0 + fit.distance)) 3 ∧
    ∀ q : Registry, (∀ t, t ≠ .unknown → q.AgreeAt r t) → ofVector q v = fit := by
  intro d fit
  refine ⟨nearest_of_isNaN, fun h t => ⟨?found, ?only⟩, rfl, rfl, fun q => ofVector_congr v⟩
  case found =>
    rintro rfl
    obtain ⟨hmem, hnumber, hleast, hearlier⟩ := firstNearest_nearest h
    have hknown := ModuleType.mem_allKnown.1 hmem
    refine ⟨hknown, hnumber, fun s hs => hleast s (ModuleType.mem_allKnown.2 hs), fun s hs => ?_⟩
    -- the unknown type is the last of all
    refine hearlier s (ModuleType.mem_allKnown.2 ?_) hs
    rintro rfl
    exact absurd hs (by cases fit.moduleType <;> decide)
  case only =>
    rintro ⟨hknown, hnumber, hleast, hearlier⟩
    refine FirstNearest.unique (firstNearest_nearest h) ⟨ModuleType.mem_allKnown.2 hknown, hnumber,
      fun s hs => hleast s (ModuleType.mem_allKnown.1 hs), fun s _ => hearlier s⟩

/-- A registry that has the same entry for every module type. -/
def evenRegistry : Registry := ⟨fun _ => .identity, fun _ => .upTo (.const 4.0)⟩

/-- A registry in which one module type has a matrix so large that the terms of a distance run off
the range with either sign. -/
def vastMatrix : Registry := Registry.shipped.setMatrix .api (.const (.const 1e308))

/-- Of equal distances the first wins; and it wins too if it is no number. -/
theorem ofVector_first :
    (ofVector evenRegistry (.const 3.0)).moduleType = .api ∧
    (ofVector vastMatrix ⟨5.0, 3.0, 2.0, 1.0, 1.0⟩).moduleType = .api := by
  have heven := ofVector_firstNearest evenRegistry (.const 3.0)
  have hvast := ofVector_firstNearest vastMatrix ⟨5.0, 3.0, 2.0, 1.0, 1.0⟩
  have hnumber : (distanceTo evenRegistry (.const 3.0) .api).isNaN = false := by decide +kernel
  refine ⟨(heven.2.1 hnumber .api).2 ⟨by decide, hnumber, fun s _ hs => ?_, fun s hs => ?_⟩,
    hvast.1 (by decide +kernel)⟩
  · exact (lt_iff.1 hs).2.2.false
  · exact absurd hs (Nat.not_lt_zero _)

/-! ### Distances that are no numbers -/

/-- **The best fit is nearest exactly if the search starts from a number.** As long as some known
type has a distance that is a number, the best fit has one too, up to that of every other, exactly
if the first known type has; it has if neither the vector nor the entry of that type holds a number
beyond `1e90`. If it has none, it is the best fit all the same, and neither the distance nor the
confidence that are reported are numbers. -/
theorem ofVector_nearest_iff (r : Registry) (v : ComplexityVector) :
    let d := distanceTo r v
    let fit := ofVector r v
    (((∃ s, s ≠ .unknown ∧ (d s).isNaN = false) →
      (d fit.moduleType).isNaN = false ∧
        ∀ s, s ≠ .unknown → (d s).isNaN = false → d fit.moduleType ≤ d s) ↔
      (d .api).isNaN = false ∨ ∀ s, s ≠ .unknown → (d s).isNaN = true) ∧
    ((d .api).isNaN = true →
      fit.moduleType = .api ∧ fit.distance.isNaN = true ∧ fit.confidence.isNaN = true) ∧
    ((∀ i j, ((r.matrix .api).entry i j).abs ≤ 1e90) →
      (∀ i, ((r.profile .api).get i).min.abs ≤ 1e90 ∧ ((r.profile .api).get i).max.abs ≤ 1e90) →
      (∀ i, (v.get i).abs ≤ 1e90) → (d .api).isNaN = false) := by
  intro d fit
  have hstays (h : (d .api).isNaN = true) : fit.moduleType = .api := nearest_of_isNaN h
  refine ⟨⟨fun h => ?start, fun h hsome => ?nearest⟩, fun h => ⟨hstays h, ?fails⟩,
    not_isNaN_distanceTo⟩
  case start =>
    by_contra hnone
    simp only [not_or, not_forall, Bool.not_eq_false, Bool.not_eq_true] at hnone
    obtain ⟨hapi, s, hs, hnumber⟩ := hnone
    have := (h ⟨s, hs, hnumber⟩).1
    rw [hstays hapi, hapi] at this
    exact Bool.noConfusion this
  case nearest =>
    obtain ⟨s, hs, hnumber⟩ := hsome
    have hapi : (d .api).isNaN = false :=
      h.resolve_right fun hnone => Bool.noConfusion (hnumber.symm.trans (hnone s hs))
    have hfit := firstNearest_nearest hapi
    refine ⟨hfit.isNumber, fun s hs hnumber => ?_⟩
    have hle := hfit.least s (ModuleType.mem_allKnown.2 hs)
    rw [lt_iff_value hnumber hfit.isNumber, not_lt] at hle
    exact (le_iff_value hfit.isNumber hnumber).2 hle
  case fails =>
    have hdistance : fit.distance.isNaN = true := by
      refine (Rounding.exact_three.isNaN_toPlaces _).trans ?_
      rwa [show nearest (distanceTo r v) = .api from hstays h]
    refine ⟨hdistance, (Rounding.exact_three.isNaN_toPlaces _).trans ?_⟩
    exact isNaN_div_of_right (isNaN_add_of_right hdistance)

/-- What the search misses: a finite distance behind one that is no number, and under the shipped
matrices an infinite one. -/
theorem ofVector_misses_nearest :
    (let v : ComplexityVector := ⟨5.0, 3.0, 2.0, 1.0, 1.0⟩
     Registry.withOverrides [(.api, .const (.const 1e308))] [] = .ok vastMatrix ∧
     v.FiniteNonneg ∧ (distanceTo vastMatrix v .lib).isFinite ∧
     (distanceTo vastMatrix v (ofVector vastMatrix v).moduleType).isNaN = true) ∧
    let v : ComplexityVector := ⟨0.0, 0.0, 1.7e308, 0.0, 0.0⟩
    Registry.withOverrides [] [] = .ok .shipped ∧ v.FiniteNonneg ∧
      (distanceTo .shipped v .deploy).isNaN = false ∧
      (distanceTo .shipped v (ofVector .shipped v).moduleType).isNaN = true := by
  have hstays {r : Registry} {v : ComplexityVector} (h : (distanceTo r v .api).isNaN = true) :
      (distanceTo r v (ofVector r v).moduleType).isNaN = true := by
    rwa [show (ofVector r v).moduleType = .api from nearest_of_isNaN h]
  have hfault : Registry.matrixFault? .api (.const (.const 1e308)) = none := by decide +kernel
  refine ⟨⟨?_, fun d => by cases d <;> decide +kernel, by decide +kernel,
    hstays (by decide +kernel)⟩, rfl, fun d => by cases d <;> decide +kernel, by decide +kernel,
    hstays (by decide +kernel)⟩
  simp [Registry.withOverrides, Registry.overrideMatrix, hfault, vastMatrix]

end BestFit

end CodeComplexity
