import Mathlib

/-!
Rounding reals to the grid of doubles.

Around a real the doubles are spaced by a power of two that leaves fifty-three digits, and by the
smallest double near zero. The nearest one is taken, a tie going to the even multiple. The range
of exponents has no upper end here; overflow is a matter of what is done with the result.

Rounding is monotone and odd, and fixes what is on the grid. Almost everything said about
doubles elsewhere rests on these three facts.
-/

namespace CodeComplexity.Double

/-- The proof that stands behind the literal two. It is named, so that the definitions of all
modules share it. -/
instance atLeastTwo_two : Nat.AtLeastTwo 2 := ⟨le_rfl⟩

/-! ### Rounding to integers -/

/-- The nearest integer, a half going to the even neighbour. -/
noncomputable def roundEven (x : ℝ) : ℤ :=
  if Int.fract x < 1 / 2 then ⌊x⌋ else if 1 / 2 < Int.fract x then ⌊x⌋ + 1 else ⌊x⌋ + ⌊x⌋ % 2

@[simp] lemma roundEven_intCast (n : ℤ) : roundEven n = n := by simp [roundEven]

@[simp] lemma roundEven_zero : roundEven 0 = 0 := by simp [roundEven]

lemma floor_le_roundEven (x : ℝ) : ⌊x⌋ ≤ roundEven x := by
  unfold roundEven
  split_ifs <;> omega

lemma roundEven_le_floor_add_one (x : ℝ) : roundEven x ≤ ⌊x⌋ + 1 := by
  unfold roundEven
  split_ifs <;> omega

lemma roundEven_mono {x y : ℝ} (h : x ≤ y) : roundEven x ≤ roundEven y := by
  rcases (Int.floor_mono h).lt_or_eq with hlt | heq
  · have hx := roundEven_le_floor_add_one x
    have hy := floor_le_roundEven y
    omega
  · have hfract : Int.fract x ≤ Int.fract y := by
      rw [Int.fract, Int.fract, heq]
      linarith
    unfold roundEven
    rw [heq]
    split_ifs <;> first | omega | linarith

lemma le_roundEven {n : ℤ} {x : ℝ} (h : (n : ℝ) ≤ x) : n ≤ roundEven x := by
  simpa using roundEven_mono h

lemma roundEven_le {n : ℤ} {x : ℝ} (h : x ≤ n) : roundEven x ≤ n := by
  simpa using roundEven_mono h

lemma roundEven_neg (x : ℝ) : roundEven (-x) = -roundEven x := by
  rcases eq_or_ne (Int.fract x) 0 with hx | hx
  · obtain ⟨n, rfl⟩ := Int.fract_eq_zero_iff.1 hx
    rw [← Int.cast_neg, roundEven_intCast, roundEven_intCast]
  · have hfloor : ⌊-x⌋ = -⌊x⌋ - 1 := by
      have hceil := Int.ceil_eq_add_one_sub_fract hx
      rw [Int.fract] at hceil
      have : (⌈x⌉ : ℝ) = (⌊x⌋ + 1 : ℤ) := by push_cast; linarith
      rw [Int.floor_neg, Int.cast_inj.1 this]
      ring
    unfold roundEven
    rw [Int.fract_neg hx, hfloor]
    split_ifs <;> first | omega | linarith

/-! ### The spacing of doubles -/

lemma two_zpow_pos (e : ℤ) : (0 : ℝ) < 2 ^ e := zpow_pos two_pos e

lemma two_zpow_le {d e : ℤ} : (2 : ℝ) ^ d ≤ 2 ^ e ↔ d ≤ e := zpow_le_zpow_iff_right₀ one_lt_two

lemma two_zpow_lt {d e : ℤ} : (2 : ℝ) ^ d < 2 ^ e ↔ d < e := zpow_lt_zpow_iff_right₀ one_lt_two

lemma two_zpow_add (d e : ℤ) : (2 : ℝ) ^ (d + e) = 2 ^ d * 2 ^ e := zpow_add₀ two_ne_zero d e

/-- The exponent of the spacing of doubles around a real. -/
noncomputable def exponent (x : ℝ) : ℤ :=
  if x = 0 then -1074 else max (Int.log 2 |x| - 52) (-1074)

lemma exponent_neg (x : ℝ) : exponent (-x) = exponent x := by simp [exponent]

lemma le_exponent (x : ℝ) : -1074 ≤ exponent x := by
  unfold exponent
  split_ifs
  · rfl
  · exact le_max_right _ _

/-- The exponent is the least that leaves fifty-three digits, unless the spacing is smallest. -/
lemma exponent_le {x : ℝ} {e : ℤ} (he : -1074 ≤ e) : exponent x ≤ e ↔ |x| < 2 ^ (e + 53) := by
  rcases eq_or_ne x 0 with rfl | hx
  · simpa [exponent, two_zpow_pos] using he
  · have hlog := Int.lt_zpow_iff_log_lt (R := ℝ) one_lt_two (x := e + 53) (abs_pos.2 hx)
    rw [Nat.cast_ofNat] at hlog
    rw [exponent, if_neg hx, max_le_iff, hlog]
    omega

lemma abs_lt_exponent (x : ℝ) : |x| < 2 ^ (exponent x + 53) :=
  (exponent_le (le_exponent x)).1 le_rfl

lemma exponent_mono {x y : ℝ} (h : |x| ≤ |y|) : exponent x ≤ exponent y :=
  (exponent_le (le_exponent y)).2 (h.trans_lt (abs_lt_exponent y))

/-- Above the smallest spacing a real has all of its fifty-three digits. -/
lemma le_abs_of_lt_exponent {x : ℝ} (h : -1074 < exponent x) : 2 ^ (exponent x + 52) ≤ |x| := by
  by_contra hlt
  have hle : exponent x ≤ exponent x - 1 := by
    rw [exponent_le (by omega), show exponent x - 1 + 53 = exponent x + 52 by ring]
    exact not_le.1 hlt
  omega

/-! ### The nearest double -/

/-- The multiple of the spacing that is nearest to a real. -/
noncomputable def nearest (x : ℝ) : ℝ := roundEven (x / 2 ^ exponent x) * 2 ^ exponent x

@[simp] lemma nearest_zero : nearest 0 = 0 := by simp [nearest]

lemma nearest_neg (x : ℝ) : nearest (-x) = -nearest x := by
  rw [nearest, exponent_neg, neg_div, roundEven_neg, Int.cast_neg, neg_mul, nearest]

/-- A multiple of a coarser spacing is a multiple of the spacing. -/
lemma exists_mul_two_zpow (n : ℤ) {d e : ℤ} (h : d ≤ e) :
    ∃ k : ℤ, (n : ℝ) * 2 ^ e = k * 2 ^ d := by
  obtain ⟨i, rfl⟩ : ∃ i : ℕ, e = d + i := ⟨(e - d).toNat, by omega⟩
  refine ⟨n * 2 ^ i, ?_⟩
  rw [two_zpow_add, zpow_natCast]
  push_cast
  ring

lemma nearest_le {x : ℝ} {n e : ℤ} (he : exponent x ≤ e) (h : x ≤ n * 2 ^ e) :
    nearest x ≤ n * 2 ^ e := by
  obtain ⟨k, hk⟩ := exists_mul_two_zpow n he
  rw [hk] at h ⊢
  have hround := roundEven_le ((div_le_iff₀ (two_zpow_pos (exponent x))).2 h)
  exact mul_le_mul_of_nonneg_right (by exact_mod_cast hround) (two_zpow_pos _).le

lemma le_nearest {x : ℝ} {n e : ℤ} (he : exponent x ≤ e) (h : n * 2 ^ e ≤ x) :
    n * 2 ^ e ≤ nearest x := by
  have := nearest_le (x := -x) (n := -n) (e := e) (by rwa [exponent_neg])
    (by push_cast; linarith)
  rw [nearest_neg] at this
  push_cast at this
  linarith

lemma nearest_nonneg {x : ℝ} (h : 0 ≤ x) : 0 ≤ nearest x := by
  simpa using le_nearest (n := 0) le_rfl (by simpa using h)

/-- Where the spacing changes, a power of two lies between, and is on both grids. -/
lemma nearest_mono_of_nonneg {x y : ℝ} (hx : 0 ≤ x) (h : x ≤ y) : nearest x ≤ nearest y := by
  have habs : |x| ≤ |y| := by rwa [abs_of_nonneg hx, abs_of_nonneg (hx.trans h)]
  rcases (exponent_mono habs).lt_or_eq with hlt | heq
  · have hy := le_abs_of_lt_exponent ((le_exponent x).trans_lt hlt)
    have hxy : exponent x ≤ exponent y - 1 := by omega
    rw [exponent_le (by have := le_exponent x; omega),
      show exponent y - 1 + 53 = exponent y + 52 by ring, abs_of_nonneg hx] at hxy
    rw [abs_of_nonneg (hx.trans h)] at hy
    have hbound : (2 : ℝ) ^ (exponent y + 52) = (1 : ℤ) * 2 ^ (exponent y + 52) := by simp
    calc nearest x ≤ 2 ^ (exponent y + 52) := by
          rw [hbound] at hxy ⊢
          exact nearest_le (by omega) hxy.le
      _ = ((2 ^ 52 : ℤ) : ℝ) * 2 ^ exponent y := by
          rw [two_zpow_add]
          norm_num
          ring
      _ ≤ nearest y := by
          refine le_nearest le_rfl (le_trans (le_of_eq ?_) hy)
          rw [two_zpow_add]
          norm_num
          ring
  · unfold nearest
    rw [heq]
    have hround := roundEven_mono (div_le_div_of_nonneg_right h (two_zpow_pos (exponent y)).le)
    exact mul_le_mul_of_nonneg_right (by exact_mod_cast hround) (two_zpow_pos _).le

/-- **Rounding is monotone.** -/
theorem nearest_mono {x y : ℝ} (h : x ≤ y) : nearest x ≤ nearest y := by
  rcases le_total 0 x with hx | hx
  · exact nearest_mono_of_nonneg hx h
  · have hx' : nearest x ≤ 0 := by
      have := nearest_nonneg (neg_nonneg.2 hx)
      rw [nearest_neg] at this
      linarith
    rcases le_total 0 y with hy | hy
    · exact hx'.trans (nearest_nonneg hy)
    · have := nearest_mono_of_nonneg (neg_nonneg.2 hy) (neg_le_neg h)
      rw [nearest_neg, nearest_neg] at this
      linarith

/-- What is on the grid: multiples of a power of two with at most fifty-three digits. -/
def OnGrid (x : ℝ) : Prop := ∃ n e : ℤ, -1074 ≤ e ∧ |n| < 2 ^ 53 ∧ x = n * 2 ^ e

/-- **Rounding fixes the grid.** -/
theorem nearest_of_onGrid {x : ℝ} (h : OnGrid x) : nearest x = x := by
  obtain ⟨n, e, he, hn, rfl⟩ := h
  have hexp : exponent (n * 2 ^ e) ≤ e := by
    rw [exponent_le he, abs_mul, abs_of_pos (two_zpow_pos e), add_comm, two_zpow_add]
    refine mul_lt_mul_of_pos_right ?_ (two_zpow_pos e)
    exact_mod_cast hn
  exact le_antisymm (nearest_le hexp le_rfl) (le_nearest hexp le_rfl)

/-- What bounds a real bounds the number it is rounded to, if it is on the grid. -/
lemma nearest_le_onGrid {x y : ℝ} (hy : OnGrid y) (h : x ≤ y) : nearest x ≤ y :=
  nearest_of_onGrid hy ▸ nearest_mono h

lemma onGrid_le_nearest {x y : ℝ} (hx : OnGrid x) (h : x ≤ y) : x ≤ nearest y :=
  nearest_of_onGrid hx ▸ nearest_mono h

/-! ### What is on the grid -/

lemma onGrid_zero : OnGrid 0 := ⟨0, 0, by norm_num, by norm_num, by norm_num⟩

lemma onGrid_two_zpow {e : ℤ} (he : -1074 ≤ e) : OnGrid (2 ^ e) := ⟨1, e, he, by norm_num, by simp⟩

lemma onGrid_natCast {n : ℕ} (h : n < 2 ^ 53) : OnGrid n :=
  ⟨n, 0, by norm_num, by rw [Nat.abs_cast]; exact_mod_cast h, by simp⟩

lemma OnGrid.neg {x : ℝ} (h : OnGrid x) : OnGrid (-x) := by
  obtain ⟨n, e, he, hn, rfl⟩ := h
  exact ⟨-n, e, he, by rwa [abs_neg], by push_cast; ring⟩

lemma onGrid_intCast {n : ℤ} (h : |n| ≤ 2 ^ 53) : OnGrid n := by
  rcases h.lt_or_eq with hlt | heq
  · exact ⟨n, 0, by norm_num, hlt, by simp⟩
  · have hpow : OnGrid (2 ^ 53) := by exact_mod_cast onGrid_two_zpow (e := 53) (by norm_num)
    rcases eq_or_eq_neg_of_abs_eq heq with rfl | rfl
    · exact_mod_cast hpow
    · exact_mod_cast hpow.neg

lemma OnGrid.abs {x : ℝ} (h : OnGrid x) : OnGrid |x| := by
  rcases abs_choice x with hx | hx <;> rw [hx]
  exacts [h, h.neg]

lemma OnGrid.two_mul {x : ℝ} (h : OnGrid x) : OnGrid (2 * x) := by
  obtain ⟨n, e, he, hn, rfl⟩ := h
  refine ⟨n, e + 1, by omega, hn, ?_⟩
  rw [two_zpow_add, zpow_one]
  ring

/-- Different numbers on the grid are at least its closest spacing apart. -/
lemma OnGrid.sub_le {x y : ℝ} (hx : OnGrid x) (hy : OnGrid y) (h : x < y) :
    x - y ≤ -2 ^ (-1074 : ℤ) := by
  obtain ⟨m, d, hd, -, rfl⟩ := hx
  obtain ⟨n, e, he, -, rfl⟩ := hy
  have hpos := two_zpow_pos (-1074)
  obtain ⟨i, hi⟩ := exists_mul_two_zpow m hd
  obtain ⟨j, hj⟩ := exists_mul_two_zpow n he
  rw [hi, hj] at h ⊢
  have hlt : i < j := by exact_mod_cast lt_of_mul_lt_mul_right h hpos.le
  have : (i : ℝ) + 1 ≤ j := by exact_mod_cast hlt
  nlinarith

lemma le_abs_nearest {x : ℝ} {e : ℤ} (he : -1074 ≤ e) (h : 2 ^ e ≤ |x|) : 2 ^ e ≤ |nearest x| := by
  rcases le_abs.1 h with h | h
  · exact (onGrid_le_nearest (onGrid_two_zpow he) h).trans (le_abs_self _)
  · have := onGrid_le_nearest (onGrid_two_zpow he) h
    rw [nearest_neg] at this
    exact this.trans (neg_le_abs _)

end CodeComplexity.Double
