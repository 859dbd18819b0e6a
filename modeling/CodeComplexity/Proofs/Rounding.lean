import CodeComplexity.Proofs.Double.Signed
import CodeComplexity.Rounding

/-!
Rounding to decimal places.

The middle step is exact: on finite doubles it is rounding of reals to the nearest integer, a half
going away from zero. So the whole of it is monotone.
-/

namespace CodeComplexity.Rounding

open Double

/-- The nearest integer of a real, a half going away from zero. -/
noncomputable def awayFromZero (r : ℝ) : ℤ := if r < 0 then -⌊-r + 1 / 2⌋ else ⌊r + 1 / 2⌋

@[simp] lemma awayFromZero_intCast (n : ℤ) : awayFromZero n = n := by
  have hfloor (k : ℤ) : ⌊(k : ℝ) + 1 / 2⌋ = k := by
    rw [Int.floor_eq_iff]
    constructor <;> linarith
  unfold awayFromZero
  split_ifs with h
  · rw [← Int.cast_neg, hfloor, neg_neg]
  · exact hfloor n

lemma awayFromZero_of_nonneg {r : ℝ} (h : 0 ≤ r) : awayFromZero r = ⌊r + 1 / 2⌋ :=
  if_neg h.not_gt

lemma awayFromZero_mono : Monotone awayFromZero := by
  intro r s h
  unfold awayFromZero
  split_ifs with hr hs hs
  · exact neg_le_neg (Int.floor_le_floor (by linarith))
  · have hlow : 0 ≤ ⌊-r + 1 / 2⌋ := Int.floor_nonneg.2 (by linarith)
    have hhigh : 0 ≤ ⌊s + 1 / 2⌋ := Int.floor_nonneg.2 (by linarith)
    omega
  · exact absurd (h.trans_lt hs) hr
  · exact Int.floor_le_floor (by linarith)

/-- Within a half of a whole number this is the nearest. -/
lemma awayFromZero_eq {r : ℝ} {n : ℤ} (h : |r - n| < 1 / 2) : awayFromZero r = n := by
  obtain ⟨hlow, hhigh⟩ := abs_lt.1 h
  unfold awayFromZero
  split_ifs with hneg
  · rw [neg_eq_iff_eq_neg, Int.floor_eq_iff]
    push_cast
    constructor <;> linarith
  · rw [Int.floor_eq_iff]
    constructor <;> linarith

lemma real_wholeFrom : wholeFrom.isFinite ∧ real wholeFrom = 2 ^ 52 := by
  have h : unpacked wholeFrom = .finite .positive (2 ^ 52) 0 (by decide) := rfl
  refine ⟨rfl, ?_⟩
  rw [real_of_unpacked h]
  norm_num

variable {x y : Float}

/-- The first double that is a whole number for its size alone bounds all that have a fraction. -/
lemma exists_int_of_large (h : 2 ^ 52 ≤ |real x|) : ∃ n : ℤ, real x = n := by
  obtain ⟨n, e, -, hn, hx⟩ := onGrid_real x
  have he : 0 ≤ e := by
    by_contra hneg
    have hhalf : (2 : ℝ) ^ e ≤ 2 ^ (-1 : ℤ) := two_zpow_le.2 (by omega)
    have hn' : |(n : ℝ)| < 2 ^ 53 := by exact_mod_cast hn
    rw [hx, abs_mul, abs_of_pos (two_zpow_pos e)] at h
    have : |(n : ℝ)| * 2 ^ e < 2 ^ 53 * 2 ^ (-1 : ℤ) :=
      mul_lt_mul hn' hhalf (two_zpow_pos e) (by positivity)
    norm_num at this h
    linarith
  obtain ⟨k, rfl⟩ : ∃ k : ℕ, e = k := ⟨e.toNat, by omega⟩
  exact ⟨n * 2 ^ k, by rw [hx]; push_cast; rw [zpow_natCast]⟩

/-- Doubling is exact below `wholeFrom`, and cutting off is the floor. -/
lemma nearestNat_eq (hx : x.isFinite) (h0 : 0 ≤ real x) (h : real x < 2 ^ 52) :
    nearestNat x = ⌊real x + 1 / 2⌋ := by
  have hlt : |2 * real x| < limit := by
    rw [abs_of_nonneg (by linarith)]
    calc 2 * real x < 2 * 2 ^ 52 := by linarith
      _ = 2 ^ (53 : ℤ) := by norm_num
      _ ≤ limit := two_zpow_le.2 (by norm_num)
  have hprod := approximates_mul (x := 2.0) rfl hx
  rw [real_two] at hprod
  obtain ⟨hfinite, hreal⟩ := hprod.exact (onGrid_real x).two_mul hlt
  have hcut := toUInt64_eq hfinite (by linarith) (by linarith)
  rw [nearestNat, hcut, hreal, ← round_eq, round_eq_div, ← Int.natCast_floor_eq_floor (by linarith)]
  push_cast
  rfl

lemma nearestNat_lt (hx : x.isFinite) (h0 : 0 ≤ real x) (h : real x < 2 ^ 52) :
    nearestNat x < 2 ^ 53 := by
  have hle : ⌊real x + 1 / 2⌋ ≤ 2 ^ 52 := by
    have : real x + 1 / 2 < (2 ^ 52 + 1 : ℤ) := by
      push_cast
      linarith
    have := Int.floor_lt.2 this
    omega
  have := nearestNat_eq hx h0 h
  omega

/-- **The middle step of rounding is exact** on finite doubles. -/
theorem real_halfAway (hx : x.isFinite) :
    (halfAway x).isFinite ∧ real (halfAway x) = awayFromZero (real x) := by
  obtain ⟨habs, hreal⟩ := real_abs hx
  have hsmall_iff : x.abs < wholeFrom ↔ |real x| < 2 ^ 52 := by
    rw [lt_iff_real habs real_wholeFrom.1, hreal, real_wholeFrom.2]
  have hneg_iff : x < 0.0 ↔ real x < 0 := lt_iff_real hx rfl
  have hpos_iff : 0.0 < x ↔ 0 < real x := lt_iff_real rfl hx
  unfold halfAway
  split_ifs with hsmall hneg hpos <;> simp only [hsmall_iff, hneg_iff, hpos_iff] at *
  · rw [abs_of_neg hneg] at hsmall hreal
    have hnat := nearestNat_eq habs (hreal ▸ by linarith) (hreal ▸ hsmall)
    obtain ⟨hf, hr⟩ := real_ofNat (nearestNat_lt habs (hreal ▸ by linarith) (hreal ▸ hsmall))
    obtain ⟨hf', hr'⟩ := real_neg hf
    refine ⟨hf', ?_⟩
    rw [hr', hr, awayFromZero, if_pos hneg, ← hreal, ← hnat]
    push_cast
    rfl
  · rw [abs_of_pos hpos] at hsmall
    have hnat := nearestNat_eq hx hpos.le hsmall
    obtain ⟨hf, hr⟩ := real_ofNat (nearestNat_lt hx hpos.le hsmall)
    refine ⟨hf, ?_⟩
    rw [hr, awayFromZero_of_nonneg hpos.le, ← hnat]
    rfl
  · have hzero : real x = (0 : ℤ) := by
      push_cast
      linarith
    exact ⟨hx, by rw [hzero, awayFromZero_intCast]⟩
  · obtain ⟨n, hn⟩ := exists_int_of_large (not_lt.1 hsmall)
    exact ⟨hx, by rw [hn, awayFromZero_intCast]⟩

/-- What is not finite is left as it is. -/
lemma halfAway_of_not_isFinite (h : ¬x.isFinite) : halfAway x = x := by
  have habs : value x.abs = ⊤ := by
    refine value_eq_top (x := x.abs) rfl (f := (unpacked x).abs) ?_
    rw [← isFinite_unpacked] at h
    cases hx : unpacked x <;> rw [hx] at h <;> trivial
  have hlarge : ¬x.abs < wholeFrom := fun hlt => by
    rw [lt_iff, habs] at hlt
    exact not_top_lt hlt.2.2
  exact if_neg hlarge

lemma halfAway_of_top (h : value x = ⊤) : value (halfAway x) = ⊤ := by
  rwa [halfAway_of_not_isFinite fun hfinite => by
    rw [value_of_isFinite hfinite] at h
    exact EReal.coe_ne_top _ h]

lemma isNaN_halfAway (x : Float) : (halfAway x).isNaN = x.isNaN := by
  by_cases hx : x.isFinite
  · rw [not_isNaN_of_isFinite hx, not_isNaN_of_isFinite (real_halfAway hx).1]
  · rw [halfAway_of_not_isFinite hx]

lemma halfAway_of_bot (h : value x = ⊥) : value (halfAway x) = ⊥ := by
  rwa [halfAway_of_not_isFinite fun hfinite => by
    rw [value_of_isFinite hfinite] at h
    exact EReal.coe_ne_bot _ h]

lemma value_halfAway_mono (h : value x ≤ value y) : value (halfAway x) ≤ value (halfAway y) := by
  refine value_mono (f := fun r => awayFromZero r) (fun r s hrs => ?_) (fun x hx => ?_)
    (fun _ => halfAway_of_top) (fun _ => halfAway_of_bot) h
  · exact Int.cast_le.2 (awayFromZero_mono hrs)
  · obtain ⟨hfinite, hreal⟩ := real_halfAway hx
    rw [← hreal, rounded_real, value_of_isFinite hfinite]

lemma below_halfAway (h : Below x y) : Below (halfAway x) (halfAway y) :=
  ⟨value_halfAway_mono (x := 0.0) h.nonneg, value_halfAway_mono h.le⟩

/-! ### Exact powers of ten -/

/-- A number of places whose power of ten is a double. -/
structure Exact (d : ℤ) : Prop where
  finite : (powerOfTen d).isFinite
  real_eq : real (powerOfTen d) = 10 ^ d.toNat

lemma exact_of_ofNat {d : ℤ} (hpower : powerOfTen d = Float.ofNat (10 ^ d.toNat))
    (hle : d.toNat ≤ 15) : Exact d := by
  have hlt : 10 ^ d.toNat < 2 ^ 53 :=
    (Nat.pow_le_pow_right (by decide) hle).trans_lt (by decide)
  obtain ⟨hfinite, hreal⟩ := real_ofNat hlt
  rw [← hpower] at hfinite hreal
  exact ⟨hfinite, hreal.trans (by push_cast; rfl)⟩

lemma exact_two : Exact 2 := exact_of_ofNat (powerOfTen_two.trans (by decide)) (by decide)

lemma exact_three : Exact 3 := exact_of_ofNat (powerOfTen_three.trans (by decide)) (by decide)

lemma real_hundred : real 100.0 = 100 := real_of_eq_ofNat (n := 100) (by decide) (by decide)

namespace Exact

variable {d : ℤ} (hd : Exact d)

include hd

lemma pos : 0.0 < powerOfTen d := by
  rw [lt_iff_real rfl hd.finite, hd.real_eq, real_zero]
  positivity

lemma below_toPlaces (h : Below x y) : Below (toPlaces x d) (toPlaces y d) :=
  (below_halfAway (h.mul (.refl (nonneg_of_lt hd.pos)))).div hd.pos

/-- **Rounding to places is monotone** on all doubles. -/
theorem value_toPlaces_mono (h : value x ≤ value y) :
    value (toPlaces x d) ≤ value (toPlaces y d) :=
  value_div_mono hd.finite hd.pos (value_halfAway_mono (value_mul_mono hd.finite hd.pos h))

/-- Rounding to places makes a number of no number, and none of a number. -/
theorem isNaN_toPlaces (x : Float) : (toPlaces x d).isNaN = x.isNaN := by
  rw [toPlaces, isNaN_div_right hd.finite hd.pos, isNaN_halfAway, isNaN_mul_right hd.finite hd.pos]

lemma zero_le_toPlaces (h : 0.0 ≤ x) : 0.0 ≤ toPlaces x d :=
  zero_le_iff.2 ⟨(hd.isNaN_toPlaces x).trans (not_isNaN_of_zero_le h),
    (hd.below_toPlaces (.refl (nonneg_of_le h))).nonneg⟩

end Exact

lemma toPlaces_three_le_one (h : x ≤ 1.0) : toPlaces x 3 ≤ 1.0 := by
  have hone : toPlaces 1.0 3 = 1.0 := by
    rw [toPlaces, powerOfTen_three]
    decide +kernel
  obtain ⟨hx, -, hle⟩ := le_iff.1 h
  rw [le_iff_value ((exact_three.isNaN_toPlaces x).trans hx) rfl, ← hone]
  exact exact_three.value_toPlaces_mono hle

end CodeComplexity.Rounding
