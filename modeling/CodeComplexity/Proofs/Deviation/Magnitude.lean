import Mathlib.Data.Finset.Max
import CodeComplexity.Deviation
import CodeComplexity.Proofs.Double.Plain

/-!
The largest magnitude of a vector.

The scan holds a number without a sign that no magnitude so far exceeds, and that is one of them
unless it is the zero it began with. What is no number exceeds nothing and is passed over. Of finite
differences the greatest has the greatest exact one behind it, since rounding keeps the order.
-/

namespace CodeComplexity.Deviation

open Double

/-- What a scan of some dimensions holds. -/
structure LargestOf (v : ComplexityVector) (seen : List Dimension) (m : Float) : Prop where
  plain : Plain m
  le : ∀ d ∈ seen, (v.get d).isNaN = false → value (v.get d).abs ≤ value m
  attained : m = 0.0 ∨ ∃ d ∈ seen, m = (v.get d).abs

variable {v : ComplexityVector} {seen : List Dimension} {m : Float}

lemma LargestOf.step (h : LargestOf v seen m) (d : Dimension) :
    LargestOf v (seen ++ [d]) (if m < (v.get d).abs then (v.get d).abs else m) := by
  split_ifs with hlt
  · obtain ⟨-, habs, hvalue⟩ := lt_iff.1 hlt
    have hnumber : (v.get d).isNaN = false := by
      by_contra hnan
      exact Bool.noConfusion (habs.symm.trans (isNaN_abs_of_isNaN (Bool.not_eq_false _ ▸ hnan)))
    exact {
      plain := plain_abs hnumber
      le := by
        simp only [List.forall_mem_append, List.forall_mem_singleton]
        exact ⟨fun e he hnumber => (h.le e he hnumber).trans hvalue.le, fun _ => le_rfl⟩
      attained := .inr ⟨d, by simp, rfl⟩ }
  · have hle (hnumber : (v.get d).isNaN = false) : value (v.get d).abs ≤ value m := by
      rwa [lt_iff_value (not_isNaN_of_zero_le h.plain.nonneg)
        (not_isNaN_of_zero_le (zero_le_abs hnumber)), not_lt] at hlt
    exact {
      plain := h.plain
      le := by
        simp only [List.forall_mem_append, List.forall_mem_singleton]
        exact ⟨h.le, hle⟩
      attained := h.attained.imp_right fun ⟨e, he, hm⟩ => ⟨e, by simp [he], hm⟩ }

lemma LargestOf.run (h : LargestOf v seen m) (rest : List Dimension) :
    LargestOf v (seen ++ rest)
      (rest.foldl (fun m d => if m < (v.get d).abs then (v.get d).abs else m) m) := by
  induction rest generalizing seen m with
  | nil => rwa [List.append_nil]
  | cons d rest ih =>
    rw [List.append_cons]
    exact ih (h.step d)

theorem largestOf_largestMagnitude (v : ComplexityVector) :
    LargestOf v Dimension.all (largestMagnitude v) := by
  have hstart : LargestOf v [] 0.0 := ⟨plain_zero, by simp, .inl rfl⟩
  exact hstart.run Dimension.all

lemma zero_le_largestMagnitude (v : ComplexityVector) : 0.0 ≤ largestMagnitude v :=
  (largestOf_largestMagnitude v).plain.nonneg

/-- A component whose real is farthest from zero has the largest magnitude. -/
lemma largestMagnitude_eq {r : Dimension → ℝ} (hv : ∀ e, Approximates (v.get e) (r e))
    {d : Dimension} (hd : ∀ e, |r e| ≤ |r d|) :
    (∀ e, (v.get e).abs ≤ (v.get d).abs) ∧ largestMagnitude v = (v.get d).abs := by
  have hle (e : Dimension) : value (v.get e).abs ≤ value (v.get d).abs := by
    rw [(hv e).abs.value, (hv d).abs.value]
    exact rounded_mono (hd e)
  have hplain := plain_abs (hv d).not_isNaN
  refine ⟨fun e => (le_iff_value (hv e).abs.not_isNaN (hv d).abs.not_isNaN).2 (hle e), ?_⟩
  obtain ⟨hm, hbound, hattained⟩ := largestOf_largestMagnitude v
  refine hm.eq hplain (le_antisymm ?_ (hbound d d.mem_all (hv d).not_isNaN))
  rcases hattained with h | ⟨e, -, h⟩ <;> rw [h]
  exacts [value_zero ▸ hplain.value_nonneg, hle e]

/-- **The largest deviation in a dimension** is that of the dimension in which vector and centroid
are farthest apart, exactly and in doubles. -/
theorem exists_maxDimensionDeviation_eq (r : Registry) (t : ModuleType)
    (hv : ∀ d, (v.get d).isFinite) (hc : ∀ d, ((r.profile t).centroid.get d).isFinite) :
    ∃ d,
      (∀ e, |real (v.get e) - real ((r.profile t).centroid.get e)| ≤
        |real (v.get d) - real ((r.profile t).centroid.get d)|) ∧
      (∀ e, (v.get e - (r.profile t).centroid.get e).abs ≤
        (v.get d - (r.profile t).centroid.get d).abs) ∧
      (ofVector r v t).maxDimensionDeviation =
        Rounding.toPlaces (v.get d - (r.profile t).centroid.get d).abs 3 := by
  set c := (r.profile t).centroid
  obtain ⟨d, -, hd⟩ := Finset.exists_max_image Dimension.all.toFinset
    (fun e => |real (v.get e) - real (c.get e)|) ⟨.control, by simp⟩
  have hd (e : Dimension) := hd e (by simp)
  obtain ⟨hle, hlargest⟩ := largestMagnitude_eq (v := v - c)
    (fun e => by rw [PerDimension.get_sub]; exact approximates_sub (hv e) (hc e)) hd
  simp only [PerDimension.get_sub] at hle hlargest
  exact ⟨d, hd, hle, congrArg (Rounding.toPlaces · 3) hlargest⟩

end CodeComplexity.Deviation
