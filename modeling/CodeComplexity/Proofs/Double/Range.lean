import CodeComplexity.Proofs.Rounding

/-!
How far results can lie from zero.

The range of doubles is so wide that a few operations on numbers of moderate size do not leave it.
Sizes are counted in powers of two: a sum costs one more, a product the sum of both, and rounding
nothing, since powers of two are on the grid.
-/

namespace CodeComplexity.Double

open Float.Model Float.Model.UnpackedFloat

/-- A finite double that is no farther from zero than a power of two. -/
structure Within (k : ℕ) (x : Float) : Prop where
  finite : x.isFinite
  le : |real x| ≤ 2 ^ k

variable {x y a : Float} {j k l : ℕ} {r s : ℝ}

lemma Within.mono (h : Within j x) (hjk : j ≤ k) : Within k x :=
  ⟨h.finite, h.le.trans (pow_le_pow_right₀ one_le_two hjk)⟩

lemma abs_nearest_le_onGrid (hs : OnGrid s) (h : |r| ≤ s) : |nearest r| ≤ s :=
  abs_le.2 ⟨onGrid_le_nearest hs.neg (abs_le.1 h).1, nearest_le_onGrid hs (abs_le.1 h).2⟩

lemma abs_nearest_le (h : |r| ≤ 2 ^ k) : |nearest r| ≤ 2 ^ k := by
  have hgrid : OnGrid (2 ^ k) := by
    have := onGrid_two_zpow (e := k) (by omega)
    rwa [zpow_natCast] at this
  exact abs_nearest_le_onGrid hgrid h

/-- What a double bounds is rounded to the grid and no more. -/
lemma Approximates.real_eq_of_abs_le (h : Approximates x r) (hr : |r| ≤ |real y|) :
    x.isFinite ∧ real x = nearest r := by
  have hvalue := h.value
  rw [rounded, overflow_of_abs_lt
    ((abs_nearest_le_onGrid (onGrid_real y).abs hr).trans_lt (abs_real_lt y))] at hvalue
  exact isFinite_of_value hvalue

/-- So is a result within the range. -/
lemma Approximates.real_eq (h : Approximates x r) (hr : |r| ≤ 2 ^ k) (hk : k < 1024) :
    x.isFinite ∧ real x = nearest r := by
  have hlimit : (2 : ℝ) ^ k < limit := by
    rw [← zpow_natCast]
    exact two_zpow_lt.2 (by omega)
  have hvalue := h.value
  rw [rounded, overflow_of_abs_lt ((abs_nearest_le hr).trans_lt hlimit)] at hvalue
  exact isFinite_of_value hvalue

/-- A finite result has been rounded to the grid, and no more. -/
lemma Approximates.real_of_isFinite (h : Approximates x r) (hx : x.isFinite) :
    real x = nearest r := by
  have hvalue := h.value
  rw [value_of_isFinite hx, rounded, overflow] at hvalue
  split_ifs at hvalue
  exacts [absurd hvalue (EReal.coe_ne_top _), absurd hvalue (EReal.coe_ne_bot _),
    EReal.coe_eq_coe_iff.1 hvalue]

lemma Approximates.within (h : Approximates x r) (hr : |r| ≤ 2 ^ k) (hk : k < 1024) :
    Within k x := by
  obtain ⟨hfinite, hreal⟩ := h.real_eq hr hk
  exact ⟨hfinite, hreal ▸ abs_nearest_le hr⟩

/-! ### Known numbers -/

/-- Whether a number taken apart shows by its exponent that it is within a power of two. -/
def fits (k : ℕ) : UnpackedFloat → Bool
  | .finite _ _ e _ => decide (e + 53 ≤ k)
  | .zero _ => true
  | _ => false

lemma within_of_fits (h : fits k (unpacked x) = true) : Within k x := by
  have hnormal := normal_unpacked x
  cases hx : unpacked x with
  | notANumber => rw [hx] at h; exact Bool.noConfusion h
  | infinity s => rw [hx] at h; exact Bool.noConfusion h
  | zero s =>
    refine ⟨by rw [← isFinite_unpacked, hx]; rfl, ?_⟩
    rw [real, hx, realOf_zero, abs_zero]
    positivity
  | finite s m e hm =>
    rw [hx] at h hnormal
    have he : e + 53 ≤ k := of_decide_eq_true h
    have hm' : (m : ℝ) ≤ 2 ^ (53 : ℤ) := by exact_mod_cast hnormal.1.le
    have hpos := two_zpow_pos e
    have hle : (m : ℝ) * 2 ^ e ≤ 2 ^ k := by
      calc (m : ℝ) * 2 ^ e ≤ 2 ^ (53 : ℤ) * 2 ^ e := mul_le_mul_of_nonneg_right hm' hpos.le
        _ = 2 ^ (e + 53) := by rw [← two_zpow_add, add_comm]
        _ ≤ 2 ^ (k : ℤ) := two_zpow_le.2 he
        _ = 2 ^ k := zpow_natCast 2 k
    refine ⟨by rw [← isFinite_unpacked, hx]; rfl, ?_⟩
    rw [real, hx, realOf, abs_mul, abs_of_nonneg (mul_nonneg m.cast_nonneg hpos.le)]
    cases s <;> simpa using hle

/-- Whether a number taken apart shows by its exponent that it is at least a power of two. -/
def exceeds (l : ℕ) : UnpackedFloat → Bool
  | .finite .positive _ e _ => decide (-(l : ℤ) ≤ e)
  | _ => false

lemma le_real_of_exceeds (h : exceeds l (unpacked x) = true) : 2 ^ (-(l : ℤ)) ≤ real x := by
  rw [real]
  cases hx : unpacked x with
  | finite s m e hm =>
    rw [hx] at h
    cases s with
    | negative => exact Bool.noConfusion h
    | positive =>
      have he : -(l : ℤ) ≤ e := of_decide_eq_true h
      have hm' : (1 : ℝ) ≤ m := by exact_mod_cast hm
      rw [realOf_positive]
      calc (2 : ℝ) ^ (-(l : ℤ)) ≤ 2 ^ e := two_zpow_le.2 he
        _ ≤ m * 2 ^ e := le_mul_of_one_le_left (two_zpow_pos e).le hm'
  | _ => rw [hx] at h; exact Bool.noConfusion h

lemma within_of_abs_le (h : x.abs ≤ a) (ha : Within k a) : Within k x := by
  have hnumber : x.isNaN = false := by
    rw [← Bool.not_eq_true]
    exact fun hx => Bool.noConfusion ((isNaN_abs_of_isNaN hx).symm.trans (le_iff.1 h).1)
  rcases isFinite_or_infinity (f := unpacked x) hnumber with hfinite | ⟨s, hs⟩
  · obtain ⟨habs, hreal⟩ := real_abs hfinite
    rw [le_iff_real habs ha.finite, hreal] at h
    exact ⟨hfinite, h.trans ((le_abs_self _).trans ha.le)⟩
  · have htop : value x.abs = ⊤ := by
      rw [value, unpacked_abs, hs]
      exact congrArg valueOf (store_infinity _)
    have hle := (le_iff.1 h).2.2
    rw [htop, value_of_isFinite ha.finite, top_le_iff] at hle
    exact absurd hle (EReal.coe_ne_top _)

/-! ### Operations -/

lemma Within.add (hx : Within k x) (hy : Within k y) (hk : k + 1 < 1024) :
    Within (k + 1) (x + y) := by
  refine (approximates_add hx.finite hy.finite).within ?_ hk
  have := abs_add_le (real x) (real y)
  rw [pow_succ]
  linarith [hx.le, hy.le]

lemma Within.sub (hx : Within k x) (hy : Within k y) (hk : k + 1 < 1024) :
    Within (k + 1) (x - y) := by
  refine (approximates_sub hx.finite hy.finite).within ?_ hk
  have := abs_sub (real x) (real y)
  rw [pow_succ]
  linarith [hx.le, hy.le]

lemma Within.mul (hx : Within k x) (hy : Within l y) (hk : k + l < 1024) :
    Within (k + l) (x * y) := by
  refine (approximates_mul hx.finite hy.finite).within ?_ hk
  rw [abs_mul, pow_add]
  exact mul_le_mul hx.le hy.le (abs_nonneg _) (by positivity)

/-- A divisor that is not too close to zero. -/
lemma Within.div (hx : Within k x) (hy : y.isFinite) (hl : 2 ^ (-(l : ℤ)) ≤ real y)
    (hk : k + l < 1024) : Within (k + l) (x / y) := by
  have hpos : 0 < real y := (two_zpow_pos _).trans_le hl
  refine (approximates_div hx.finite hy hpos.ne').within ?_ hk
  rw [abs_div, abs_of_pos hpos, div_le_iff₀ hpos]
  calc |real x| ≤ 2 ^ k := hx.le
    _ = 2 ^ (k + l) * 2 ^ (-(l : ℤ)) := by
      rw [← zpow_natCast, ← zpow_natCast, ← two_zpow_add]
      congr 1
      omega
    _ ≤ 2 ^ (k + l) * real y := mul_le_mul_of_nonneg_left hl (by positivity)

lemma Within.abs (hx : Within k x) : Within k x.abs := by
  obtain ⟨hfinite, hreal⟩ := real_abs hx.finite
  exact ⟨hfinite, by rw [hreal, abs_abs]; exact hx.le⟩

/-- Each summand costs one power of two. -/
lemma Within.foldl {ι : Type} (l : List ι) {f : ι → Float} (ha : Within k a)
    (h : ∀ i, Within k (f i)) (hk : k + l.length < 1024) :
    Within (k + l.length) (l.foldl (fun s i => s + f i) a) := by
  induction l generalizing k a with
  | nil => exact ha
  | cons i rest ih =>
    rw [List.length_cons] at hk ⊢
    have := ih (ha.add (h i) (by omega)) (fun j => (h j).mono (by omega)) (by omega)
    rwa [add_right_comm, add_assoc] at this

end CodeComplexity.Double

namespace CodeComplexity.Rounding

open Double

variable {x : Float} {k : ℕ}

lemma abs_floor_le {r : ℝ} (h0 : 0 ≤ r) (h : r ≤ 2 ^ k) : |(⌊r + 1 / 2⌋ : ℝ)| ≤ 2 ^ k := by
  have hlt : ⌊r + 1 / 2⌋ < (2 ^ k : ℤ) + 1 := by
    rw [Int.floor_lt]
    push_cast
    linarith
  have hnonneg : 0 ≤ ⌊r + 1 / 2⌋ := Int.floor_nonneg.2 (by linarith)
  rw [abs_of_nonneg (by exact_mod_cast hnonneg)]
  exact_mod_cast Int.lt_add_one_iff.1 hlt

lemma within_halfAway (hx : Within k x) : Within k (halfAway x) := by
  obtain ⟨hfinite, hreal⟩ := real_halfAway hx.finite
  obtain ⟨hlow, hhigh⟩ := abs_le.1 hx.le
  refine ⟨hfinite, ?_⟩
  rw [hreal, awayFromZero]
  split_ifs with hneg
  · rw [Int.cast_neg, abs_neg]
    exact abs_floor_le (by linarith) (by linarith)
  · exact abs_floor_le (not_lt.1 hneg) hhigh

/-- Rounding to places costs what the power of ten does. -/
lemma Exact.within_toPlaces {d : ℤ} (hd : Exact d) (hle : d ≤ 3) (hx : Within k x)
    (hk : k + 10 < 1024) : Within (k + 10) (toPlaces x d) := by
  have hone : (1 : ℝ) ≤ 10 ^ d.toNat := one_le_pow₀ (by norm_num)
  have hpower : Within 10 (powerOfTen d) := by
    refine ⟨hd.finite, ?_⟩
    rw [hd.real_eq, abs_of_pos (by positivity)]
    calc (10 : ℝ) ^ d.toNat ≤ 10 ^ 3 := pow_le_pow_right₀ (by norm_num) (by omega)
      _ ≤ 2 ^ 10 := by norm_num
  exact (within_halfAway (hx.mul hpower hk)).div (l := 0) hd.finite
    (by simpa [hd.real_eq] using hone) hk

end CodeComplexity.Rounding
