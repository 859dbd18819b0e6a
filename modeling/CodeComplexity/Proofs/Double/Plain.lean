import CodeComplexity.Proofs.Double.Difference
import CodeComplexity.Proofs.Double.TotalOrder

/-!
Numbers without a sign.

A number that is not below zero and not the negative zero is known by its value alone. A sum that
begins at zero stays such a number while nothing below zero is added to it. So nothing but the
values of the summands matters to it, and zeros of either sign may be left out, without a bit of it
changing.
-/

namespace CodeComplexity.Double

open Float.Model Float.Model.UnpackedFloat

/-- A number that carries no minus sign, not even on a zero. -/
structure Plain (x : Float) : Prop where
  nonneg : 0.0 ≤ x
  ne : x ≠ -0.0

variable {x y z : Float} {r : ℝ}

lemma plain_zero : Plain 0.0 := ⟨by decide, by decide⟩

lemma Plain.value_nonneg (h : Plain x) : 0 ≤ value x := nonneg_of_le h.nonneg

/-- **Nothing but the value matters.** -/
theorem Plain.eq (hx : Plain x) (hy : Plain y) (h : value x = value y) : x = y :=
  eq_of_nonneg hx.nonneg hy.nonneg hx.ne hy.ne h

/-! ### Sums -/

lemma Plain.add (hx : Plain x) (hy : 0.0 ≤ y) : Plain (x + y) :=
  ⟨zero_le_add hx.nonneg hy, fun h => hx.ne ((add_eq_neg_zero_iff hx.nonneg hy).1 h).1⟩

/-- Summands of one value may be exchanged. -/
lemma Plain.add_congr (hx : Plain x) (hy : 0.0 ≤ y) (hz : 0.0 ≤ z) (h : value y = value z) :
    x + y = x + z :=
  (hx.add hy).eq (hx.add hz) <|
    le_antisymm (value_add_mono_of_below x ⟨nonneg_of_le hy, h.le⟩)
      (value_add_mono_of_below x ⟨nonneg_of_le hz, h.ge⟩)

lemma zero_le_of_beq_zero (h : (z == 0.0) = true) : 0.0 ≤ z ∧ value z = 0 := by
  obtain ⟨hnumber, -, hvalue⟩ := beq_iff.1 h
  exact ⟨zero_le_iff.2 ⟨hnumber, (hvalue.trans value_zero).ge⟩, hvalue⟩

lemma Plain.add_of_beq_zero (hx : Plain x) (hz : (z == 0.0) = true) : x + z = x := by
  obtain ⟨hz0, hvalue⟩ := zero_le_of_beq_zero hz
  rw [hx.add_congr hz0 plain_zero.nonneg hvalue]
  exact (hx.add plain_zero.nonneg).eq hx (value_add_zero (not_isNaN_of_zero_le hx.nonneg))

/-- All summands but one being zeros, a sum is that of this one alone. -/
lemma Plain.foldl_single {ι : Type} [DecidableEq ι] {f : ι → Float} {i : ι}
    (hzero : ∀ j, j ≠ i → (f j == 0.0) = true) (hi : 0.0 ≤ f i) {l : List ι} (hl : l.Nodup)
    (hx : Plain x) : l.foldl (fun s j => s + f j) x = if i ∈ l then x + f i else x := by
  induction l generalizing x with
  | nil => simp
  | cons j rest ih =>
    obtain ⟨hj, hrest⟩ := List.nodup_cons.1 hl
    rw [List.foldl_cons]
    by_cases hji : j = i
    · subst hji
      rw [ih hrest (hx.add hi), if_neg hj, if_pos List.mem_cons_self]
    · rw [hx.add_of_beq_zero (hzero j hji), ih hrest hx]
      simp [Ne.symm hji]

/-! ### Magnitudes -/

lemma unpacked_abs_eq (x : Float) : unpacked x.abs = (unpacked x).abs := by
  obtain ⟨hnormal, hrange⟩ := unpack_normal x.toModel
  rw [unpacked_abs]
  change store x.toModel.unpack.abs = x.toModel.unpack.abs
  cases hx : x.toModel.unpack with
  | notANumber => exact store_notANumber
  | infinity s => exact store_infinity _
  | zero s => exact store_zero _
  | finite s m e hm =>
    rw [hx] at hnormal hrange
    exact store_of_le (s := .positive) hnormal hrange

lemma plain_abs (hx : x.isNaN = false) : Plain x.abs := by
  refine ⟨zero_le_abs hx, fun h => ?_⟩
  have hunpacked : (unpacked x).abs = .zero .negative := by rw [← unpacked_abs_eq, h]; rfl
  cases hclass : unpacked x <;> rw [hclass] at hunpacked <;> simp [UnpackedFloat.abs] at hunpacked

/-- The magnitude is the greater of a number and its opposite. -/
lemma value_abs (hx : x.isNaN = false) : value x.abs = max (value x) (-value x) := by
  rcases isFinite_or_infinity (f := unpacked x) hx with hxf | ⟨s, hs⟩
  · obtain ⟨hfinite, hreal⟩ := real_abs hxf
    rw [value_of_isFinite hfinite, value_of_isFinite hxf, hreal, abs_eq_max_neg,
      EReal.coe_strictMono.monotone.map_max, EReal.coe_neg]
  · rw [value, value, unpacked_abs_eq, hs]
    cases s <;> simp [UnpackedFloat.abs, valueOf]

lemma Plain.abs_eq (hx : Plain x) : x.abs = x := by
  have hnumber := not_isNaN_of_zero_le hx.nonneg
  refine (plain_abs hnumber).eq hx ((value_abs hnumber).trans (max_eq_left ?_))
  exact (EReal.neg_le_zero.2 hx.value_nonneg).trans hx.value_nonneg

/-- The magnitude of what is nearest to a real is nearest to its magnitude. -/
lemma Approximates.abs (h : Approximates x r) : Approximates x.abs |r| where
  not_isNaN := not_isNaN_of_zero_le (zero_le_abs h.not_isNaN)
  value := by
    have hmono : Monotone rounded := fun _ _ => rounded_mono
    rw [value_abs h.not_isNaN, h.value, ← rounded_opposite, ← hmono.map_max]
    rfl

end CodeComplexity.Double
