import CodeComplexity.Proofs.Double.Alike
import CodeComplexity.Proofs.Double.Error

/-!
The laws of rounding to decimal places.

Rounding keeps the order of doubles, mirrors them at zero, and leaves a whole number as it is while
fifty-three digits hold what it is scaled to. Done again it changes nothing more: the quotient,
scaled up once more, is off its whole number by two errors of rounding, and as long as these do not
add up to a half the number nearest to it is the same.
-/

namespace CodeComplexity.Rounding

open Double

variable {x y : Float} {d : ℤ} {r : ℝ} {n : ℤ}

/-! ### Signs -/

lemma halfAway_opposite (x : Float) : halfAway (-x) = -halfAway x := by
  simp only [halfAway, abs_opposite, opposite_lt_zero_iff, zero_lt_opposite_iff]
  split_ifs with hsmall hpos hneg hneg
  · exact absurd (lt_iff.1 hpos).2.2 (lt_iff.1 hneg).2.2.not_gt
  · rw [abs_of_zero_lt hpos]
  · rw [abs_of_lt_zero hneg, opposite_opposite]
  · rfl
  · rfl

/-- **Rounding is odd**, to any number of places, also on zeros and on what is no number. -/
theorem toPlaces_opposite (x : Float) (d : ℤ) : toPlaces (-x) d = -toPlaces x d := by
  rw [toPlaces, toPlaces, opposite_mul, halfAway_opposite, opposite_div]

lemma noMinus_halfAway (hx : NoMinus x) : NoMinus (halfAway x) := by
  by_cases hfinite : x.isFinite
  · unfold halfAway
    split_ifs with hsmall hneg hpos
    · exact absurd hneg hx.not_lt
    · have hreal := real_pos hfinite hpos
      rw [abs_of_zero_lt hpos, lt_iff_real hfinite real_wholeFrom.1, real_wholeFrom.2] at hsmall
      exact noMinus_ofNat (nearestNat_lt hfinite hreal.le hsmall)
    · exact hx
    · exact hx
  · rwa [halfAway_of_not_isFinite hfinite]

/-! ### Exact powers of ten -/

namespace Exact

variable (h : Exact d)

include h

lemma approximates_mul (hx : x.isFinite) :
    Approximates (x * powerOfTen d) (real x * 10 ^ d.toNat) :=
  h.real_eq ▸ Double.approximates_mul hx h.finite

lemma approximates_div (hx : x.isFinite) :
    Approximates (x / powerOfTen d) (real x / 10 ^ d.toNat) :=
  h.real_eq ▸ Double.approximates_div hx h.finite (real_pos h.finite h.pos).ne'

/-- While the scaled double is finite, rounding is division of the whole number nearest to it. -/
lemma real_toPlaces (hx : (x * powerOfTen d).isFinite) : (toPlaces x d).isFinite ∧
    real (toPlaces x d) = nearest (awayFromZero (real (x * powerOfTen d)) / 10 ^ d.toNat) := by
  obtain ⟨hfinite, hreal⟩ := real_halfAway hx
  rw [← hreal]
  refine (h.approximates_div hfinite).real_eq_of_abs_le (y := halfAway (x * powerOfTen d)) ?_
  rw [abs_div, abs_of_pos (by positivity : (0 : ℝ) < 10 ^ d.toNat)]
  exact div_le_self (abs_nonneg _) (one_le_pow₀ (by norm_num))

lemma le_toPlaces (hxy : x ≤ y) : toPlaces x d ≤ toPlaces y d := by
  obtain ⟨hx, hy, hle⟩ := le_iff.1 hxy
  exact le_iff.2 ⟨(h.isNaN_toPlaces x).trans hx, (h.isNaN_toPlaces y).trans hy,
    h.value_toPlaces_mono hle⟩

lemma toPlaces_zero : toPlaces 0.0 d = 0.0 := by
  rw [toPlaces, zero_mul_of_pos h.finite h.pos]
  exact zero_div_of_pos h.finite h.pos

/-- Zeros keep their sign. -/
lemma toPlaces_of_beq_zero (hx : (x == 0.0) = true) : toPlaces x d = x := by
  obtain ⟨hnumber, -, hzero⟩ := beq_iff.1 hx
  rcases eq_zero_or_neg_zero hnumber hzero with rfl | rfl
  · exact h.toPlaces_zero
  · rw [toPlaces_opposite, h.toPlaces_zero]

/-- What is rounded to its own real is not changed in any bit. -/
lemma toPlaces_eq_self (hx : x.isFinite)
    (hreal : (toPlaces x d).isFinite ∧ real (toPlaces x d) = real x) : toPlaces x d = x := by
  have halike : Alike (toPlaces x d) x := alike_of_real hreal.1 hx hreal.2
  exact halike.eq_or_zeros.elim id fun hzeros => h.toPlaces_of_beq_zero hzeros.2

lemma noMinus_toPlaces (hx : NoMinus x) : NoMinus (toPlaces x d) := by
  have hpower : NoMinus (powerOfTen d) := signOf_of_pos (pos_of_lt h.pos)
  exact (noMinus_halfAway (hx.mul hpower)).div hpower

/-- Without minus signs, nothing but the whole number nearest to the scaled double matters. -/
lemma toPlaces_congr (hx : NoMinus x) (hy : NoMinus y) (hxf : (x * powerOfTen d).isFinite)
    (hyf : (y * powerOfTen d).isFinite)
    (heq : awayFromZero (real (x * powerOfTen d)) = awayFromZero (real (y * powerOfTen d))) :
    toPlaces x d = toPlaces y d := by
  obtain ⟨hxfinite, hxreal⟩ := h.real_toPlaces hxf
  obtain ⟨hyfinite, hyreal⟩ := h.real_toPlaces hyf
  have halike : Alike (toPlaces x d) (toPlaces y d) :=
    alike_of_real hxfinite hyfinite (by rw [hxreal, hyreal, heq])
  exact halike.eq (h.noMinus_toPlaces hx) (h.noMinus_toPlaces hy)

/-! #### Whole numbers -/

lemma toPlaces_intCast (hx : x.isFinite) (hn : real x = n) (hle : |n| * 10 ^ d.toNat ≤ 2 ^ 53) :
    toPlaces x d = x := by
  have hscaled : real x * 10 ^ d.toNat = (n * 10 ^ d.toNat : ℤ) := by
    rw [hn]
    push_cast
    rfl
  have hgrid : OnGrid (real x * 10 ^ d.toNat) := by
    rw [hscaled]
    exact onGrid_intCast (by rwa [abs_mul, abs_of_pos (by positivity : (0 : ℤ) < 10 ^ d.toNat)])
  have hrange : |real x * 10 ^ d.toNat| ≤ 2 ^ 53 := by
    rw [abs_mul, abs_of_pos (by positivity : (0 : ℝ) < 10 ^ d.toNat), hn]
    exact_mod_cast hle
  obtain ⟨hfinite, hreal⟩ := (h.approximates_mul hx).real_eq hrange (by norm_num)
  obtain ⟨hquotient, heq⟩ := h.real_toPlaces hfinite
  refine h.toPlaces_eq_self hx ⟨hquotient, ?_⟩
  rw [heq, hreal, nearest_of_onGrid hgrid, hscaled, awayFromZero_intCast, ← hscaled,
    mul_div_cancel_right₀ _ (by positivity), nearest_of_onGrid (onGrid_real x)]

/-! #### Twice -/

/-- A quotient scaled up again is off by the error of the division alone. -/
lemma abs_scaled_quotient_sub_le (hr : |r| ≤ 2 ^ 50) :
    |nearest (r / 10 ^ d.toNat) * 10 ^ d.toNat - r| ≤ 1 / 8 + 2 ^ (-51 : ℤ) := by
  have hpos : (0 : ℝ) < 10 ^ d.toNat := by positivity
  have hlimit : (10 : ℝ) ^ d.toNat ≤ 2 ^ (1024 : ℤ) := by
    have := abs_real_lt (powerOfTen d)
    rw [h.real_eq, abs_of_pos hpos] at this
    exact this.le
  have hround := abs_nearest_sub_le (r / 10 ^ d.toNat)
  have hunscale : |r / 10 ^ d.toNat| * 10 ^ d.toNat = |r| := by
    rw [abs_div, abs_of_pos hpos, div_mul_cancel₀ _ hpos.ne']
  calc |nearest (r / 10 ^ d.toNat) * 10 ^ d.toNat - r|
      = |nearest (r / 10 ^ d.toNat) - r / 10 ^ d.toNat| * 10 ^ d.toNat := by
        rw [← abs_of_pos hpos, ← abs_mul, abs_of_pos hpos, sub_mul, div_mul_cancel₀ _ hpos.ne']
    _ ≤ (2 ^ (-53 : ℤ) * |r / 10 ^ d.toNat| + 2 ^ (-1075 : ℤ)) * 10 ^ d.toNat :=
        mul_le_mul_of_nonneg_right hround hpos.le
    _ = 2 ^ (-53 : ℤ) * |r| + 2 ^ (-1075 : ℤ) * 10 ^ d.toNat := by rw [add_mul, mul_assoc, hunscale]
    _ ≤ 2 ^ (-53 : ℤ) * 2 ^ 50 + 2 ^ (-1075 : ℤ) * 2 ^ (1024 : ℤ) :=
        add_le_add (mul_le_mul_of_nonneg_left hr (two_zpow_pos _).le)
          (mul_le_mul_of_nonneg_left hlimit (two_zpow_pos _).le)
    _ = 1 / 8 + 2 ^ (-51 : ℤ) := by
        rw [← two_zpow_add]
        norm_num

/-- The scaled quotient has the same whole number nearest to it. -/
lemma awayFromZero_scaled (hx : x.isFinite) (hreal : real x = nearest (n / 10 ^ d.toNat))
    (hn : |(n : ℝ)| ≤ 2 ^ 50) :
    (x * powerOfTen d).isFinite ∧ awayFromZero (real (x * powerOfTen d)) = n := by
  have hclose := h.abs_scaled_quotient_sub_le hn
  rw [← hreal] at hclose
  have hrange : |real x * 10 ^ d.toNat| ≤ 2 ^ 51 := by
    have := (abs_sub_abs_le_abs_sub (real x * 10 ^ d.toNat) n).trans hclose
    norm_num at this hn ⊢
    linarith
  obtain ⟨hfinite, hscaled⟩ := (h.approximates_mul hx).real_eq hrange (by norm_num)
  refine ⟨hfinite, awayFromZero_eq ?_⟩
  -- one error comes from the division and is scaled up, the other from the product
  have hround := abs_nearest_sub_le (real x * 10 ^ d.toNat)
  have htiny : (2 : ℝ) ^ (-1075 : ℤ) ≤ 2 ^ (-51 : ℤ) := two_zpow_le.2 (by norm_num)
  have hpart := mul_le_mul_of_nonneg_left hrange (two_zpow_pos (-53)).le
  calc |real (x * powerOfTen d) - n|
      = |nearest (real x * 10 ^ d.toNat) - real x * 10 ^ d.toNat +
          (real x * 10 ^ d.toNat - n)| := by
        rw [hscaled, sub_add_sub_cancel]
    _ ≤ 2 ^ (-53 : ℤ) * 2 ^ 51 + 2 ^ (-51 : ℤ) + (1 / 8 + 2 ^ (-51 : ℤ)) :=
        (abs_add_le _ _).trans (add_le_add (hround.trans (add_le_add hpart htiny)) hclose)
    _ < 1 / 2 := by norm_num

lemma toPlaces_twice (hx : x.isFinite) (hle : |real x| * 10 ^ d.toNat ≤ 2 ^ 50) :
    toPlaces (toPlaces x d) d = toPlaces x d := by
  have hscaled : Within 50 (x * powerOfTen d) := by
    refine (h.approximates_mul hx).within ?_ (by norm_num)
    rwa [abs_mul, abs_of_pos (by positivity : (0 : ℝ) < 10 ^ d.toNat)]
  have hwhole : |(awayFromZero (real (x * powerOfTen d)) : ℝ)| ≤ 2 ^ 50 :=
    (real_halfAway hscaled.finite).2 ▸ (within_halfAway hscaled).le
  -- both runs divide the same whole number
  obtain ⟨hfinite, hreal⟩ := h.real_toPlaces hscaled.finite
  obtain ⟨hagain, hsame⟩ := h.awayFromZero_scaled hfinite hreal hwhole
  obtain ⟨hfinite', hreal'⟩ := h.real_toPlaces hagain
  exact h.toPlaces_eq_self hfinite ⟨hfinite', by rw [hreal', hsame, hreal]⟩

end Exact

/-- **The laws of rounding** to two places and to three. It keeps the order of all numbers, the
infinities and those that it sends there included; it is odd; a whole number whose scaled size is no
more than two to the power 53 stays as it is; and where the scaled size is no more than two to the
power 50, what has been rounded once is not changed by rounding it again. -/
theorem toPlaces_laws {d : ℕ} (hd : d = 2 ∨ d = 3) :
    (∀ x y : Float, x ≤ y → toPlaces x d ≤ toPlaces y d) ∧
    (∀ x : Float, toPlaces (-x) d = -toPlaces x d) ∧
    (∀ (x : Float) (n : ℤ), x.isFinite → real x = n → |n| * 10 ^ d ≤ 2 ^ 53 → toPlaces x d = x) ∧
    ∀ x : Float, x.isFinite → |real x| * 10 ^ d ≤ 2 ^ 50 →
      toPlaces (toPlaces x d) d = toPlaces x d := by
  have hexact : Exact (d : ℤ) := by
    rcases hd with rfl | rfl
    exacts [exact_two, exact_three]
  exact ⟨fun _ _ hxy => hexact.le_toPlaces hxy, fun x => toPlaces_opposite x d,
    fun _ _ hx hn hle => hexact.toPlaces_intCast hx hn hle,
    fun _ hx hle => hexact.toPlaces_twice hx hle⟩

/-- To three places: a number that overflows against an infinity, the negative zero, a whole number,
and a number that lies next to the half of a thousandth. -/
theorem toPlaces_three_laws :
    toPlaces 1e308 3 ≤ toPlaces (1.0 / 0.0) 3 ∧ toPlaces (-0.0) 3 = -toPlaces 0.0 3 ∧
      toPlaces 100.0 3 = 100.0 ∧ toPlaces (toPlaces 1.0005 3) 3 = toPlaces 1.0005 3 := by
  obtain ⟨hmono, hodd, hwhole, htwice⟩ := toPlaces_laws (d := 3) (.inr rfl)
  have hsize : |real 1.0005| ≤ 2 := by
    rw [abs_of_nonneg ((le_iff_real (x := 0.0) rfl rfl).1 (by decide)), ← real_two]
    exact (le_iff_real rfl rfl).1 (by decide)
  refine ⟨hmono _ _ (by decide +kernel), hodd 0.0, hwhole 100.0 100 rfl ?_ (by norm_num), ?_⟩
  · exact_mod_cast real_hundred
  · refine htwice 1.0005 rfl ?_
    norm_num
    linarith

end CodeComplexity.Rounding
