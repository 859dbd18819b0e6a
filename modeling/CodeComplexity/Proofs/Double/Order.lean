import CodeComplexity.Proofs.Double.Monotone

/-!
Comparing results of the arithmetic with zero and one.

A difference has the sign of the comparison, since it cannot vanish by underflow. A quotient lies
below one exactly if its dividend lies below its divisor: no two doubles are so close that their
quotient is rounded to one. The sign of a quotient, though, can be lost.
-/

namespace CodeComplexity.Double

open Float.Model Float.Model.UnpackedFloat

/-! ### Gaps -/

/-- A positive finite double, unpacked. -/
lemma unpacked_of_pos {y : Float} (hy : y.isFinite) (h0 : 0.0 < y) :
    ∃ m e hm, unpacked y = .finite .positive m e hm ∧ Normal (.finite .positive m e hm) ∧
      real y = m * 2 ^ e := by
  have hpos := real_pos hy h0
  have hnormal := normal_unpacked y
  rw [real] at hpos ⊢
  rcases zero_or_finite (f := unpacked y) hy with ⟨s, hf⟩ | ⟨s, m, e, hm, hf⟩ <;>
    rw [hf] at hpos hnormal ⊢
  · exact absurd hpos (lt_irrefl _)
  · cases s
    · exact absurd hpos realOf_neg.not_gt
    · exact ⟨m, e, hm, rfl, hnormal, realOf_positive⟩

/-- What lies below a double on the grid is smaller by more than its last bit is worth. -/
lemma le_of_lt_real {d : ℝ} {y : Float} (hd : OnGrid d) (hy : y.isFinite) (h0 : 0.0 < y)
    (h : d < real y) : d ≤ real y * (1 - 2 ^ (-53 : ℤ)) := by
  obtain ⟨m, e, hm, -, hn, hreal⟩ := unpacked_of_pos hy h0
  obtain ⟨n, a, ha, hn', rfl⟩ := hd
  rw [hreal] at h ⊢
  have he := two_zpow_pos e
  rcases le_or_gt e a with hle | hlt
  · -- a multiple of the spacing of the greater one
    obtain ⟨k, hk⟩ := exists_mul_two_zpow n hle
    rw [hk] at h ⊢
    have hkm : k < m := by exact_mod_cast lt_of_mul_lt_mul_right h he.le
    have hkm' : (k : ℝ) + 1 ≤ m := by exact_mod_cast hkm
    have hm' : (m : ℝ) ≤ 2 ^ 53 := by exact_mod_cast hn.1.le
    have hsmall : (m : ℝ) * 2 ^ (-53 : ℤ) ≤ 1 := by
      rw [zpow_neg, ← div_eq_mul_inv, div_le_one (two_zpow_pos 53)]
      exact_mod_cast hm'
    nlinarith
  · -- closer spaced, so it lies in a lower binade
    have hfull : (2 : ℝ) ^ 52 ≤ m := by exact_mod_cast hn.2.2.resolve_right (by omega)
    have hn'' : (n : ℝ) ≤ 2 ^ 53 - 1 := by
      have : n ≤ 2 ^ 53 - 1 := by have := (abs_lt.1 hn').2; omega
      exact_mod_cast this
    have hhalf : (2 : ℝ) ^ a ≤ 2 ^ e / 2 := by
      rw [le_div_iff₀ two_pos, ← zpow_add_one₀ two_ne_zero]
      exact two_zpow_le.2 hlt
    calc (n : ℝ) * 2 ^ a ≤ (2 ^ 53 - 1) * 2 ^ a :=
          mul_le_mul_of_nonneg_right hn'' (two_zpow_pos a).le
      _ ≤ (2 ^ 53 - 1) * (2 ^ e / 2) := mul_le_mul_of_nonneg_left hhalf (by norm_num)
      _ = 2 ^ 52 * (2 ^ e * (1 - 2 ^ (-53 : ℤ))) := by norm_num; ring
      _ ≤ m * (2 ^ e * (1 - 2 ^ (-53 : ℤ))) :=
        mul_le_mul_of_nonneg_right hfull (mul_nonneg he.le (by norm_num))
      _ = m * 2 ^ e * (1 - 2 ^ (-53 : ℤ)) := (mul_assoc _ _ _).symm

/-- The gap below a double is at least what its own size is worth in the last place. -/
lemma le_sub_of_lt {k : ℤ} {x y : Float} (hx : x.isFinite) (hy : y.isFinite) (h : real x < real y)
    (hk : 2 ^ k ≤ |real y|) : 2 ^ (k - 53) ≤ real y - real x := by
  have hpart {d : ℝ} {f : Float} (hd : OnGrid d) (hf : f.isFinite) (hpos : 0 < real f)
      (hlt : d < real f) : real f * 2 ^ (-53 : ℤ) ≤ real f - d := by
    have := le_of_lt_real hd hf (by rwa [lt_iff_real rfl hf, real_zero]) hlt
    linarith
  have hscale : (2 : ℝ) ^ (k - 53) = 2 ^ k * 2 ^ (-53 : ℤ) := two_zpow_add k (-53)
  have hunit := two_zpow_pos (-53)
  rcases lt_trichotomy (real y) 0 with hneg | hzero | hpos
  · obtain ⟨hfinite, hreal⟩ := real_neg hx
    have := hpart (onGrid_real y).neg hfinite (by linarith) (by linarith)
    rw [abs_of_neg hneg] at hk
    rw [hscale]
    rw [hreal] at this
    nlinarith
  · rw [hzero, abs_zero] at hk
    exact absurd hk (two_zpow_pos k).not_ge
  · have := hpart (onGrid_real x) hy hpos h
    rw [abs_of_pos hpos] at hk
    rw [hscale]
    nlinarith

/-- Two different positive doubles are half the last place of either apart. -/
lemma le_abs_sub_of_ne {m n : ℕ} {a b : ℤ} {hm : 0 < m} {hn : 0 < n}
    (ha : Normal (.finite .positive m a hm)) (hb : Normal (.finite .positive n b hn))
    (h : (m : ℝ) * 2 ^ a ≠ n * 2 ^ b) :
    2 ^ max (b - 1) (-1074) ≤ |(m : ℝ) * 2 ^ a - n * 2 ^ b| := by
  have ha1 := ha.2.1
  have hb1 := hb.2.1
  set c := max (b - 1) (-1074) with hc
  have hcpos := two_zpow_pos c
  rcases le_or_gt c a with hle | hlt
  · -- both are multiples of the bound
    obtain ⟨i, hi⟩ := exists_mul_two_zpow m hle
    obtain ⟨j, hj⟩ := exists_mul_two_zpow n (show c ≤ b by omega)
    rw [Int.cast_natCast] at hi hj
    rw [hi, hj] at h ⊢
    have hij : i - j ≠ 0 := fun hij => h (by rw [sub_eq_zero.1 hij])
    rw [← sub_mul, abs_mul, abs_of_pos hcpos]
    have : (1 : ℝ) ≤ |((i - j : ℤ) : ℝ)| := by exact_mod_cast Int.one_le_abs hij
    push_cast at this
    nlinarith
  · -- the first is less than half of the second
    have hfull : (2 : ℝ) ^ 52 ≤ n := by exact_mod_cast hb.2.2.resolve_right (by omega)
    have hm' : (m : ℝ) ≤ 2 ^ 53 := by exact_mod_cast ha.1.le
    have hb' : (2 : ℝ) ^ b = 2 * 2 ^ c := by
      rw [show b = 1 + c by omega, two_zpow_add, zpow_one]
    have ha' : (2 : ℝ) ^ a ≤ 2 ^ c / 2 := by
      rw [le_div_iff₀ two_pos, ← zpow_add_one₀ two_ne_zero]
      exact two_zpow_le.2 hlt
    have hfirst : (m : ℝ) * 2 ^ a ≤ 2 ^ 52 * 2 ^ c := by
      calc (m : ℝ) * 2 ^ a ≤ 2 ^ 53 * (2 ^ c / 2) :=
            mul_le_mul hm' ha' (two_zpow_pos a).le (by norm_num)
        _ = 2 ^ 52 * 2 ^ c := by ring
    have hsecond : 2 ^ 53 * 2 ^ c ≤ (n : ℝ) * 2 ^ b := by
      rw [hb']
      nlinarith
    rw [abs_sub_comm, le_abs]
    left
    nlinarith

/-! ### Differences -/

lemma nearest_sub_neg {r s : ℝ} (hr : OnGrid r) (hs : OnGrid s) (h : r < s) :
    nearest (r - s) < 0 :=
  (nearest_le_onGrid (onGrid_two_zpow le_rfl).neg (hr.sub_le hs h)).trans_lt
    (neg_neg_of_pos (two_zpow_pos _))

lemma overflow_neg_iff {r : ℝ} : overflow r < 0 ↔ r < 0 := by
  have hlimit := limit_pos
  constructor
  · intro h
    by_contra hr
    have hzero : overflow 0 = 0 := overflow_of_abs_lt (by simpa)
    exact h.not_ge (hzero ▸ overflow_mono (not_lt.1 hr))
  · intro h
    by_cases hr : r ≤ -limit
    · rw [overflow_of_le_neg hr]
      exact EReal.bot_lt_zero
    · rw [overflow_of_abs_lt (abs_lt.2 ⟨not_le.1 hr, h.trans hlimit⟩)]
      exact EReal.coe_neg'.2 h

lemma rounded_neg {k : ℤ} {r : ℝ} (hk : -1074 ≤ k) (h : r ≤ -2 ^ k) : rounded r < 0 :=
  overflow_neg_iff.2 ((nearest_le_onGrid (onGrid_two_zpow hk).neg h).trans_lt
    (neg_neg_of_pos (two_zpow_pos k)))

variable {x y : Float}

/-- **A difference has the sign of the comparison.** -/
theorem value_sub_neg_iff (hx : x.isFinite) (hy : y.isFinite) : value (x - y) < 0 ↔ x < y := by
  rw [(approximates_sub hx hy).value, rounded, overflow_neg_iff, lt_iff_real hx hy]
  refine ⟨fun h => ?_, nearest_sub_neg (onGrid_real x) (onGrid_real y)⟩
  by_contra hle
  exact h.not_ge (nearest_nonneg (sub_nonneg.2 (not_lt.1 hle)))

/-- Doubles of one sign have no difference that is too large. -/
lemma real_sub (hx : x.isFinite) (hy : y.isFinite) (hx0 : 0 ≤ real x) (hy0 : 0 ≤ real y) :
    (x - y).isFinite ∧ real (x - y) = nearest (real x - real y) := by
  have hupper : nearest (real x - real y) ≤ real x :=
    nearest_le_onGrid (onGrid_real x) (by linarith)
  have hlower : -real y ≤ nearest (real x - real y) :=
    onGrid_le_nearest (onGrid_real y).neg (by linarith)
  have hlt : |nearest (real x - real y)| < limit := by
    have hx' := (abs_lt.1 (abs_real_lt x)).2
    have hy' := (abs_lt.1 (abs_real_lt y)).2
    exact abs_lt.2 ⟨by linarith, by linarith⟩
  refine isFinite_of_value ?_
  rw [(approximates_sub hx hy).value, rounded, overflow_of_abs_lt hlt]

/-- A gap that a power of two measures is not lost, if the difference is finite. -/
lemma real_sub_le {k : ℤ} (hx : x.isFinite) (hy : y.isFinite) (hfinite : (x - y).isFinite)
    (hk : k < 1024) (h : real x - real y ≤ -2 ^ k) : real (x - y) ≤ -2 ^ k := by
  have hvalue := (approximates_sub hx hy).value
  rw [value_of_isFinite hfinite] at hvalue
  rcases le_or_gt (-1074) k with hk' | hk'
  · have hrange : |-(2 : ℝ) ^ k| < limit := by
      rw [abs_neg, abs_of_pos (two_zpow_pos k)]
      exact two_zpow_lt.2 hk
    have hle := rounded_le_onGrid (onGrid_two_zpow hk').neg hrange h
    rwa [← hvalue, EReal.coe_le_coe_iff] at hle
  · have hneg : real (x - y) < 0 := by
      rw [← EReal.coe_neg', hvalue, rounded, overflow_neg_iff]
      exact nearest_sub_neg (onGrid_real x) (onGrid_real y)
        (by have := two_zpow_pos k; linarith)
    have := (onGrid_real (x - y)).sub_le onGrid_zero hneg
    have := two_zpow_le.2 hk'.le
    linarith

/-! ### Quotients -/

lemma rounded_div_lt_one_iff {d : ℝ} (hd : OnGrid d) (hy : y.isFinite) (h0 : 0.0 < y) :
    rounded (d / real y) < 1 ↔ d < real y := by
  have hpos := real_pos hy h0
  have hrange {r : ℝ} (h0 : 0 ≤ r) (h1 : r ≤ 1) : |r| < limit := by
    rw [abs_of_nonneg h0]
    exact h1.trans_lt (one_lt_zpow₀ one_lt_two (by norm_num))
  constructor
  · intro h
    by_contra hle
    have hgrid : OnGrid 1 := ⟨1, 0, by norm_num, by norm_num, by norm_num⟩
    have hquot : 1 ≤ d / real y := (one_le_div hpos).2 (not_lt.1 hle)
    exact h.not_ge (onGrid_le_rounded hgrid (hrange zero_le_one le_rfl) hquot)
  · intro h
    have hgrid : OnGrid (1 - 2 ^ (-53 : ℤ)) :=
      ⟨2 ^ 53 - 1, -53, by norm_num, by norm_num, by norm_num⟩
    have hquot : d / real y ≤ 1 - 2 ^ (-53 : ℤ) := by
      rw [div_le_iff₀ hpos, mul_comm]
      exact le_of_lt_real hd hy h0 h
    refine (rounded_le_onGrid hgrid (hrange (by norm_num) (by norm_num)) hquot).trans_lt ?_
    rw [← EReal.coe_one, EReal.coe_lt_coe_iff]
    norm_num

/-- Infinity divided by a positive double stays what it is. -/
lemma unpacked_infinity_div {s : Sign} (hx : unpacked x = .infinity s) (hy : y.isFinite)
    (h0 : 0.0 < y) : unpacked (x / y) = .infinity s := by
  obtain ⟨m, e, hm, hf, -⟩ := unpacked_of_pos hy h0
  have h : unpacked (x / y) = store (UnpackedFloat.div Format.binary64 (unpacked x) (unpacked y)) :=
    rfl
  rw [h, hx, hf]
  cases s <;> exact store_infinity _

/-- **A quotient lies below one exactly if its dividend lies below its divisor.** -/
theorem value_div_lt_one_iff (hx : x.isNaN = false) (hy : y.isFinite) (h0 : 0.0 < y) :
    value (x / y) < 1 ↔ value x < value y := by
  rw [value_of_isFinite hy]
  rcases isFinite_or_infinity (f := unpacked x) hx with hfinite | ⟨s, hinf⟩
  · rw [(approximates_div hfinite hy (real_pos hy h0).ne').value, value_of_isFinite hfinite,
      EReal.coe_lt_coe_iff]
    exact rounded_div_lt_one_iff (onGrid_real x) hy h0
  · rw [value, value, unpacked_infinity_div hinf hy h0, hinf]
    cases s
    · exact iff_of_true (EReal.bot_lt_coe 1) (EReal.bot_lt_coe _)
    · exact iff_of_false not_top_lt not_top_lt

/-- A quotient is a number if its dividend is one and its divisor positive. -/
lemma not_isNaN_div (hx : x.isNaN = false) (hy : y.isFinite) (h0 : 0.0 < y) :
    (x / y).isNaN = false := by
  rcases isFinite_or_infinity (f := unpacked x) hx with hfinite | ⟨s, hinf⟩
  · have hpos := real_pos hy h0
    exact (approximates_div hfinite hy hpos.ne').not_isNaN
  · rw [← isNaN_unpacked, unpacked_infinity_div hinf hy h0]
    rfl

lemma value_div_nonpos (hx : x.isNaN = false) (hy : y.isFinite) (h0 : 0.0 < y) (h : value x ≤ 0) :
    value (x / y) ≤ 0 := by
  rcases isFinite_or_infinity (f := unpacked x) hx with hfinite | ⟨s, hinf⟩
  · have hpos := real_pos hy h0
    rw [value_of_isFinite hfinite, EReal.coe_nonpos] at h
    rw [(approximates_div hfinite hy hpos.ne').value, ← rounded_zero]
    exact rounded_mono (div_nonpos_of_nonpos_of_nonneg h hpos.le)
  · rwa [value, unpacked_infinity_div hinf hy h0, ← hinf]

/-- **A quotient has the sign of its dividend, or vanishes.** -/
theorem div_neg_iff (hx : x.isNaN = false) (hy : y.isFinite) (h0 : 0.0 < y) :
    x / y < 0.0 ↔ value x < 0 ∧ ¬(x / y == 0.0) = true := by
  have hnumber := not_isNaN_div hx hy h0
  rw [lt_iff_value hnumber rfl, beq_iff_value hnumber rfl, value_zero]
  rcases lt_or_ge (value x) 0 with h | h
  · have hle := value_div_nonpos hx hy h0 h.le
    exact ⟨fun hlt => ⟨h, hlt.ne⟩, fun hne => hle.lt_of_ne hne.2⟩
  · have hge := ((Below.refl h).div h0).nonneg
    exact iff_of_false hge.not_gt fun hlt => h.not_gt hlt.1

end CodeComplexity.Double
