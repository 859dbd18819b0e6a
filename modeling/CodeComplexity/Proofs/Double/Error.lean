import CodeComplexity.Proofs.Double.Range

/-!
How far rounding moves a result.

One rounding moves a real by half the spacing of doubles around it, so a sum of doubles by no more
than a fixed part of itself. Several sums in a row add their parts up, in whatever order the
summands are taken. Where the summands are multiples of one power of two there is nothing to round.
-/

namespace CodeComplexity.Double

open Float.Model Float.Model.UnpackedFloat

/-! ### One rounding -/

lemma abs_roundEven_sub_le (r : ℝ) : |(roundEven r : ℝ) - r| ≤ 1 / 2 := by
  have hfract : (⌊r⌋ : ℝ) = r - Int.fract r := by
    rw [Int.fract]
    ring
  have h0 := Int.fract_nonneg r
  have h1 := (Int.fract_lt_one r).le
  unfold roundEven
  split_ifs with hlow hhigh
  · rw [hfract, abs_le]
    constructor <;> linarith
  · push_cast
    rw [hfract, abs_le]
    constructor <;> linarith
  · have hhalf : Int.fract r = 1 / 2 := le_antisymm (not_lt.1 hhigh) (not_lt.1 hlow)
    rcases Int.emod_two_eq_zero_or_one ⌊r⌋ with h | h <;> rw [h] <;> push_cast <;>
      rw [hfract, hhalf, abs_le] <;> constructor <;> linarith

lemma abs_nearest_sub_le_spacing (r : ℝ) : |nearest r - r| ≤ 1 / 2 * 2 ^ exponent r := by
  have hpos := two_zpow_pos (exponent r)
  have hscale : nearest r - r = (roundEven (r / 2 ^ exponent r) - r / 2 ^ exponent r) *
      2 ^ exponent r := by
    rw [nearest, sub_mul, div_mul_cancel₀ _ hpos.ne']
  rw [hscale, abs_mul, abs_of_pos hpos]
  exact mul_le_mul_of_nonneg_right (abs_roundEven_sub_le _) hpos.le

/-- Away from zero rounding moves a real by no more than a fixed part of it. -/
lemma abs_nearest_sub_le_of_lt {r : ℝ} (h : -1074 < exponent r) :
    |nearest r - r| ≤ 2 ^ (-53 : ℤ) * |r| := by
  have hle := le_abs_of_lt_exponent h
  have hpart : (2 : ℝ) ^ (-53 : ℤ) * 2 ^ (exponent r + 52) = 1 / 2 * 2 ^ exponent r := by
    rw [← two_zpow_add, show -53 + (exponent r + 52) = -1 + exponent r by ring, two_zpow_add]
    norm_num
  calc |nearest r - r| ≤ 1 / 2 * 2 ^ exponent r := abs_nearest_sub_le_spacing r
    _ = 2 ^ (-53 : ℤ) * 2 ^ (exponent r + 52) := hpart.symm
    _ ≤ 2 ^ (-53 : ℤ) * |r| := mul_le_mul_of_nonneg_left hle (two_zpow_pos _).le

/-- Near zero it moves a real by no more than half the smallest double. -/
theorem abs_nearest_sub_le (r : ℝ) :
    |nearest r - r| ≤ 2 ^ (-53 : ℤ) * |r| + 2 ^ (-1075 : ℤ) := by
  rcases (le_exponent r).eq_or_lt with h | h
  · have hhalf : (2 : ℝ) ^ (-1075 : ℤ) = 1 / 2 * 2 ^ (-1074 : ℤ) := by
      rw [show (-1075 : ℤ) = -1 + -1074 by norm_num, two_zpow_add]
      norm_num
    rw [hhalf, h]
    exact (abs_nearest_sub_le_spacing r).trans
      (le_add_of_nonneg_left (mul_nonneg (two_zpow_pos _).le (abs_nonneg r)))
  · exact (abs_nearest_sub_le_of_lt h).trans (le_add_of_nonneg_right (two_zpow_pos _).le)

/-- But a multiple of the smallest double is not moved there at all. -/
lemma abs_nearest_sub_le_of_multiple (n : ℤ) {r : ℝ} (hr : r = n * 2 ^ (-1074 : ℤ)) :
    |nearest r - r| ≤ 2 ^ (-53 : ℤ) * |r| := by
  rcases (le_exponent r).eq_or_lt with h | h
  · have hexact : nearest r = r := by
      rw [nearest, ← h, hr, mul_div_assoc, div_self (two_zpow_pos _).ne', mul_one,
        roundEven_intCast]
    rw [hexact, sub_self, abs_zero]
    exact mul_nonneg (two_zpow_pos _).le (abs_nonneg r)
  · exact abs_nearest_sub_le_of_lt h

variable {x y : Float}

lemma exists_multiple_of_add (x y : Float) :
    ∃ n : ℤ, real x + real y = n * 2 ^ (-1074 : ℤ) := by
  obtain ⟨m, d, hd, -, hx⟩ := onGrid_real x
  obtain ⟨n, e, he, -, hy⟩ := onGrid_real y
  obtain ⟨i, hi⟩ := exists_mul_two_zpow m hd
  obtain ⟨j, hj⟩ := exists_mul_two_zpow n he
  exact ⟨i + j, by rw [hx, hy, hi, hj]; push_cast; ring⟩

/-! ### Several roundings -/

/-- A finite double that a number of roundings have moved away from a real, each by no more than a
fixed part of it. -/
structure Estimates (k : ℕ) (s : ℝ) (x : Float) : Prop where
  finite : x.isFinite
  close : |real x - s| ≤ k * 2 ^ (-52 : ℤ) * s

variable {j k : ℕ} {s t : ℝ}

lemma Estimates.self (hx : x.isFinite) : Estimates 0 (real x) x := ⟨hx, by simp⟩

lemma Estimates.mono (h : Estimates j s x) (hs : 0 ≤ s) (hjk : j ≤ k) : Estimates k s x := by
  refine ⟨h.finite, h.close.trans ?_⟩
  have : (j : ℝ) ≤ k := Nat.cast_le.2 hjk
  gcongr

lemma Estimates.abs_le (h : Estimates k s x) (hs : 0 ≤ s) (hk : k ≤ 2 ^ 52) :
    |real x| ≤ 2 * s := by
  have hpart : (k : ℝ) * 2 ^ (-52 : ℤ) ≤ 1 := by
    have hk' : (k : ℝ) ≤ 2 ^ (52 : ℤ) := by exact_mod_cast hk
    calc (k : ℝ) * 2 ^ (-52 : ℤ) ≤ 2 ^ (52 : ℤ) * 2 ^ (-52 : ℤ) :=
          mul_le_mul_of_nonneg_right hk' (two_zpow_pos _).le
      _ = 1 := by norm_num
  have hclose := h.close.trans (mul_le_mul_of_nonneg_right hpart hs)
  calc |real x| = |real x - s + s| := by rw [sub_add_cancel]
    _ ≤ |real x - s| + |s| := abs_add_le _ _
    _ ≤ 2 * s := by rw [abs_of_nonneg hs]; linarith

lemma Estimates.magnitude_add_le (hx : Estimates k s x) (hy : Estimates k t y) (hs : 0 ≤ s)
    (ht : 0 ≤ t) (hk : k ≤ 2 ^ 52) : |real x + real y| ≤ 2 * (s + t) := by
  have := abs_add_le (real x) (real y)
  have := hx.abs_le hs hk
  have := hy.abs_le ht hk
  linarith

/-- A sum is one more rounding, if it is finite. -/
lemma Estimates.add_of_isFinite (hx : Estimates k s x) (hy : Estimates k t y) (hs : 0 ≤ s)
    (ht : 0 ≤ t) (hk : k ≤ 2 ^ 52) (hfinite : (x + y).isFinite) :
    Estimates (k + 1) (s + t) (x + y) := by
  have habs := hx.magnitude_add_le hy hs ht hk
  have hreal := (approximates_add hx.finite hy.finite).real_of_isFinite hfinite
  refine ⟨hfinite, ?_⟩
  obtain ⟨n, hn⟩ := exists_multiple_of_add x y
  have hround := abs_nearest_sub_le_of_multiple n hn
  have hpart : (2 : ℝ) ^ (-53 : ℤ) * |real x + real y| ≤ 2 ^ (-52 : ℤ) * (s + t) := by
    calc (2 : ℝ) ^ (-53 : ℤ) * |real x + real y| ≤ 2 ^ (-53 : ℤ) * (2 * (s + t)) :=
          mul_le_mul_of_nonneg_left habs (two_zpow_pos _).le
      _ = 2 ^ (-52 : ℤ) * (s + t) := by rw [← mul_assoc]; norm_num
  calc |real (x + y) - (s + t)|
      = |nearest (real x + real y) - (real x + real y) + ((real x - s) + (real y - t))| := by
        rw [hreal]
        congr 1
        ring
    _ ≤ |nearest (real x + real y) - (real x + real y)| + (|real x - s| + |real y - t|) :=
        (abs_add_le _ _).trans (add_le_add_right (abs_add_le _ _) _)
    _ ≤ 2 ^ (-52 : ℤ) * (s + t) + (k * 2 ^ (-52 : ℤ) * s + k * 2 ^ (-52 : ℤ) * t) :=
        add_le_add (hround.trans hpart) (add_le_add hx.close hy.close)
    _ = (k + 1 : ℕ) * 2 ^ (-52 : ℤ) * (s + t) := by
        push_cast
        ring

/-- Well inside the range it is. -/
lemma Estimates.add (hx : Estimates k s x) (hy : Estimates k t y) (hs : 0 ≤ s) (ht : 0 ≤ t)
    (hk : k ≤ 2 ^ 52) {m : ℕ} (hm : m + 1 < 1024) (hlt : s + t ≤ 2 ^ m) :
    Estimates (k + 1) (s + t) (x + y) := by
  have hrange : |real x + real y| ≤ 2 ^ (m + 1) := by
    have := hx.magnitude_add_le hy hs ht hk
    rw [pow_succ]
    linarith
  exact hx.add_of_isFinite hy hs ht hk
    ((approximates_add hx.finite hy.finite).real_eq hrange hm).1

/-! ### Multiples of a power of two -/

structure Multiple (e : ℤ) (n : ℕ) (x : Float) : Prop where
  finite : x.isFinite
  eq : real x = n * 2 ^ e

lemma multiple_of_unpacked {e : ℤ} {n : ℕ} {hn : 0 < n * 2 ^ k}
    (h : unpacked x = .finite .positive (n * 2 ^ k) (e - k) hn) : Multiple e n x := by
  refine ⟨by rw [← isFinite_unpacked, h]; rfl, ?_⟩
  rw [real_of_unpacked h, zpow_sub₀ two_ne_zero, zpow_natCast]
  push_cast
  field_simp

/-- Sums of multiples are exact as long as fifty-three digits hold them. -/
lemma Multiple.add {e : ℤ} {m n : ℕ} (hx : Multiple e m x) (hy : Multiple e n y) (hlow : -1074 ≤ e)
    (hhigh : e ≤ 971) (hlt : m + n < 2 ^ 53) : Multiple e (m + n) (x + y) := by
  have happrox := approximates_add hx.finite hy.finite
  have hsum : real x + real y = (m + n : ℕ) * 2 ^ e := by
    rw [hx.eq, hy.eq]
    push_cast
    ring
  rw [hsum] at happrox
  have hlt' : ((m + n : ℕ) : ℝ) < 2 ^ (53 : ℤ) := by exact_mod_cast hlt
  obtain ⟨hfinite, hreal⟩ := happrox.exact
    ⟨(m + n : ℕ), e, hlow, by rw [Nat.abs_cast]; exact_mod_cast hlt, by push_cast; ring⟩ (by
      rw [abs_of_nonneg (by positivity), limit, show (1024 : ℤ) = 53 + 971 by norm_num,
        two_zpow_add]
      exact mul_lt_mul hlt' (two_zpow_le.2 hhigh) (two_zpow_pos e) (two_zpow_pos 53).le)
  exact ⟨hfinite, hreal⟩

end CodeComplexity.Double
