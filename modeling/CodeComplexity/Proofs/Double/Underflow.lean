import CodeComplexity.Proofs.Double.Difference
import CodeComplexity.Proofs.Double.Error

/-!
Products that vanish.

A real is rounded to zero exactly if it is no larger than half the smallest double. That is the only
way in which a product of numbers other than zero loses its sign: infinities have it, and no
difference of different doubles vanishes. So two changes in opposite directions have a product below
zero, unless it is that small.
-/

namespace CodeComplexity.Double

open Float.Model Float.Model.UnpackedFloat

/-! ### Reals near zero -/

lemma roundEven_half : roundEven (1 / 2) = 0 := by
  have hfloor : ⌊(1 / 2 : ℝ)⌋ = 0 := by norm_num
  rw [roundEven, Int.fract, hfloor]
  norm_num

/-- Up to half the smallest double a real is nearest to zero, the half included, since zero is
even. -/
lemma nearest_eq_zero_iff {r : ℝ} : nearest r = 0 ↔ |r| ≤ 2 ^ (-1075 : ℤ) := by
  have hhalf : (2 : ℝ) ^ (-1075 : ℤ) = 1 / 2 * 2 ^ (-1074 : ℤ) := by
    rw [show (-1075 : ℤ) = -1 + -1074 by norm_num, two_zpow_add]
    norm_num
  constructor
  · intro h
    have hclose := abs_nearest_sub_le_spacing r
    rw [h, zero_sub, abs_neg] at hclose
    rcases (le_exponent r).eq_or_lt with hexp | hexp
    · rwa [hhalf, hexp]
    · -- a real with all its digits is no closer to zero than its own size
      have hlarge := le_abs_of_lt_exponent hexp
      rw [two_zpow_add] at hlarge
      have := two_zpow_pos (exponent r)
      norm_num at hlarge
      linarith
  · intro h
    have hexp : exponent r = -1074 := by
      refine le_antisymm ((exponent_le le_rfl).2 ?_) (le_exponent r)
      exact h.trans_lt (two_zpow_lt.2 (by norm_num))
    have hscaled : |r / 2 ^ (-1074 : ℤ)| ≤ 1 / 2 := by
      rw [abs_div, abs_of_pos (two_zpow_pos _), div_le_iff₀ (two_zpow_pos _), ← hhalf]
      exact h
    obtain ⟨hlow, hhigh⟩ := abs_le.1 hscaled
    have hle := roundEven_mono hhigh
    have hge := roundEven_mono hlow
    rw [roundEven_neg, roundEven_half] at hge
    rw [roundEven_half] at hle
    rw [nearest, hexp, le_antisymm hle hge, Int.cast_zero, zero_mul]

lemma rounded_eq_zero_iff {r : ℝ} : rounded r = 0 ↔ |r| ≤ 2 ^ (-1075 : ℤ) := by
  rw [← nearest_eq_zero_iff, rounded, overflow]
  have hlimit := limit_pos
  split_ifs with hhigh hlow
  · exact iff_of_false EReal.top_ne_zero (by linarith)
  · exact iff_of_false EReal.bot_ne_zero (by linarith)
  · rw [EReal.coe_eq_zero]

/-! ### Products -/

variable {x y : Float}

/-- A number above zero. -/
lemma unpacked_of_value_pos (hx : x.isNaN = false) (h : 0 < value x) :
    unpacked x = .infinity .positive ∨ ∃ m e hm, unpacked x = .finite .positive m e hm := by
  rcases isFinite_or_infinity (f := unpacked x) hx with hfinite | ⟨s, hs⟩
  · obtain ⟨m, e, hm, hf, -⟩ := unpacked_of_pos hfinite
      ((lt_iff_value rfl hx).2 (value_zero.trans_lt h))
    exact .inr ⟨m, e, hm, hf⟩
  · rw [value, hs] at h
    cases s
    exacts [absurd h not_lt_bot, .inl hs]

/-- A number below zero. -/
lemma unpacked_of_value_neg (h : value x < 0) :
    unpacked x = .infinity .negative ∨ ∃ m e hm, unpacked x = .finite .negative m e hm := by
  unfold value at h
  cases hx : unpacked x with
  | notANumber => exact absurd (hx ▸ h) not_top_lt
  | infinity s =>
    cases s
    exacts [.inl rfl, absurd (hx ▸ h) not_top_lt]
  | zero s => exact absurd (hx ▸ h) (lt_irrefl _)
  | finite s m e hm =>
    cases s
    exacts [.inr ⟨m, e, hm, rfl⟩, absurd (EReal.coe_neg'.1 (hx ▸ h)) realOf_pos.not_gt]

/-- Opposite signs make a product that is not above zero. -/
lemma mul_of_pos_of_neg (hx : x.isNaN = false) (hx0 : 0 < value x) (hy0 : value y < 0) :
    (x * y).isNaN = false ∧ value (x * y) ≤ 0 := by
  have hinf (h : unpacked (x * y) = .infinity .negative) :
      (x * y).isNaN = false ∧ value (x * y) ≤ 0 := by
    rw [← isNaN_unpacked, value, h]
    exact ⟨rfl, bot_le⟩
  rcases unpacked_of_value_pos hx hx0 with hx' | ⟨m, d, hm, hx'⟩ <;>
    rcases unpacked_of_value_neg hy0 with hy' | ⟨n, e, hn, hy'⟩
  · exact hinf (by rw [unpacked_mul, hx', hy']; exact store_infinity _)
  · exact hinf (by rw [unpacked_mul, hx', hy']; exact store_infinity _)
  · exact hinf (by rw [unpacked_mul, hx', hy']; exact store_infinity _)
  · have hxf : x.isFinite := by rw [← isFinite_unpacked, hx']; rfl
    have hyf : y.isFinite := by rw [← isFinite_unpacked, hy']; rfl
    rw [value_of_isFinite hxf, EReal.coe_pos] at hx0
    rw [value_of_isFinite hyf, EReal.coe_neg'] at hy0
    have h := approximates_mul hxf hyf
    refine ⟨h.not_isNaN, ?_⟩
    rw [h.value, ← rounded_zero]
    exact rounded_mono (mul_nonpos_of_nonneg_of_nonpos hx0.le hy0.le)

lemma mul_of_neg_of_pos (hx : x.isNaN = false) (hy : y.isNaN = false) (hx0 : value x < 0)
    (hy0 : 0 < value y) : (x * y).isNaN = false ∧ value (x * y) ≤ 0 := by
  have h := mul_of_pos_of_neg (x := -x) (y := -y) ((isNaN_neg x).trans hx)
    (by rwa [value_neg hx, EReal.neg_pos]) (by rwa [value_neg hy, EReal.neg_lt_zero])
  rwa [← isNaN_unpacked, value, unpacked_neg_mul_neg, isNaN_unpacked, ← value] at h

/-- A number other than zero. -/
lemma unpacked_of_value_ne (hx : x.isNaN = false) (h : value x ≠ 0) :
    (∃ s, unpacked x = .infinity s) ∨ ∃ s m e hm, unpacked x = .finite s m e hm := by
  rcases isFinite_or_infinity (f := unpacked x) hx with hfinite | hinf
  · rcases zero_or_finite (f := unpacked x) hfinite with ⟨s, hs⟩ | hf
    · exact absurd (by rw [value, hs]; rfl) h
    · exact .inr hf
  · exact .inl hinf

/-- **Underflow.** A product of numbers other than zero vanishes only if it is too small. -/
theorem mul_beq_zero_iff (hx : x.isNaN = false) (hy : y.isNaN = false) (hx0 : value x ≠ 0)
    (hy0 : value y ≠ 0) : (x * y == 0.0) = true ↔
      x.isFinite ∧ y.isFinite ∧ |real x * real y| ≤ 2 ^ (-1075 : ℤ) := by
  have hinf {s : Sign} (h : unpacked (x * y) = .infinity s) (hnot : ¬(x.isFinite ∧ y.isFinite)) :
      (x * y == 0.0) = true ↔
        x.isFinite ∧ y.isFinite ∧ |real x * real y| ≤ 2 ^ (-1075 : ℤ) := by
    refine iff_of_false ?_ fun h => hnot ⟨h.1, h.2.1⟩
    rw [beq_zero_iff, h]
    simp
  rcases unpacked_of_value_ne hx hx0 with ⟨s, hs⟩ | ⟨s, m, d, hm, hs⟩
  · have hnot : ¬(x.isFinite ∧ y.isFinite) := fun h => unpacked_ne_infinity h.1 s hs
    rcases unpacked_of_value_ne hy hy0 with ⟨t, ht⟩ | ⟨t, n, e, hn, ht⟩ <;>
      exact hinf (by rw [unpacked_mul, hs, ht]; exact store_infinity _) hnot
  · rcases unpacked_of_value_ne hy hy0 with ⟨t, ht⟩ | ⟨t, n, e, hn, ht⟩
    · exact hinf (by rw [unpacked_mul, hs, ht]; exact store_infinity _)
        fun h => unpacked_ne_infinity h.2 t ht
    · have hxf : x.isFinite := by rw [← isFinite_unpacked, hs]; rfl
      have hyf : y.isFinite := by rw [← isFinite_unpacked, ht]; rfl
      have h := approximates_mul hxf hyf
      rw [beq_iff_value h.not_isNaN rfl, value_zero, h.value, rounded_eq_zero_iff]
      exact ⟨fun h => ⟨hxf, hyf, h⟩, fun h => h.2.2⟩

/-! ### Changes in opposite directions -/

variable {a b c : Float}

/-- A change of finite doubles, by its direction. -/
lemma sub_of_lt (ha : a.isFinite) (hb : b.isFinite) (h : a < b) :
    0 < value (b - a) ∧ value (a - b) < 0 := by
  have hneg := (value_sub_neg_iff ha hb).2 h
  refine ⟨?_, hneg⟩
  rwa [(sub_swap a b).2 (approximates_sub ha hb).not_isNaN, EReal.neg_pos]

/-- **The middle one stands out.** Two changes have a product below zero exactly if the middle one
of the three lies above the others or below them, and the product does not vanish. -/
theorem mul_sub_lt_zero_iff (ha : a.isFinite) (hb : b.isFinite) (hc : c.isFinite) :
    (b - a) * (c - b) < 0.0 ↔
      (a < b ∧ c < b ∨ b < a ∧ b < c) ∧ ¬((b - a) * (c - b) == 0.0) = true := by
  have hnumber := (approximates_sub hb ha).not_isNaN
  have hnumber' := (approximates_sub hc hb).not_isNaN
  constructor
  · intro h
    refine ⟨?_, fun hzero => (lt_iff.1 h).2.2.ne (beq_iff.1 hzero).2.2⟩
    by_contra hsame
    refine not_mul_sub_lt_zero ?_ h
    simp only [lt_iff_real ha hb, lt_iff_real hb ha, lt_iff_real hb hc,
      lt_iff_real hc hb] at hsame ⊢
    rcases lt_trichotomy (real a) (real b) with hab | hab | hab
    · exact .inl ⟨hab.not_gt, fun hcb => hsame (.inl ⟨hab, hcb⟩)⟩
    · rcases le_total (real b) (real c) with hbc | hbc
      exacts [.inl ⟨hab.not_gt, hbc.not_gt⟩, .inr ⟨hab.not_lt, hbc.not_gt⟩]
    · exact .inr ⟨hab.not_gt, fun hbc => hsame (.inr ⟨hab, hbc⟩)⟩
  · rintro ⟨hopposite, hne⟩
    obtain ⟨hproduct, hle⟩ :
        ((b - a) * (c - b)).isNaN = false ∧ value ((b - a) * (c - b)) ≤ 0 := by
      rcases hopposite with ⟨hab, hcb⟩ | ⟨hba, hbc⟩
      · exact mul_of_pos_of_neg hnumber (sub_of_lt ha hb hab).1 (sub_of_lt hc hb hcb).2
      · exact mul_of_neg_of_pos hnumber hnumber' (sub_of_lt hb ha hba).2 (sub_of_lt hb hc hbc).1
    rw [lt_iff_value hproduct rfl, value_zero]
    refine hle.lt_of_ne fun hzero => hne ?_
    rw [beq_iff_value hproduct rfl, hzero, value_zero]

end CodeComplexity.Double
