import CodeComplexity.Proofs.Double.Signed

/-!
Differences of doubles, and their signs.

Taking a finite double away keeps the order, and being taken away turns it around. A difference has
the opposite value of the one taken the other way, unless neither is a number, so it falls on the
side of zero that the comparison says. All this holds for infinities too.
-/

namespace CodeComplexity.Double

open Float.Model Float.Model.UnpackedFloat

variable {x x' y y' : Float}

lemma unpacked_sub (x y : Float) :
    unpacked (x - y) = store (UnpackedFloat.sub Format.binary64 (unpacked x) (unpacked y)) := rfl

/-! ### Infinities -/

lemma unpacked_infinity_sub {s : Sign} (hx : unpacked x = .infinity s) (hy : y.isFinite) :
    unpacked (x - y) = .infinity s := by
  rw [unpacked_sub, hx]
  rcases zero_or_finite (f := unpacked y) hy with ⟨t, h⟩ | ⟨t, m, e, hm, h⟩ <;> rw [h] <;>
    exact store_infinity s

lemma unpacked_sub_infinity {s : Sign} (hx : x.isFinite) (hy : unpacked y = .infinity s) :
    unpacked (x - y) = .infinity (-s) := by
  rw [unpacked_sub, hy]
  rcases zero_or_finite (f := unpacked x) hx with ⟨t, h⟩ | ⟨t, m, e, hm, h⟩ <;> rw [h] <;>
    exact store_infinity (-s)

lemma isNaN_infinity_sub_infinity {s : Sign} (hx : unpacked x = .infinity s)
    (hy : unpacked y = .infinity s) : (x - y).isNaN = true :=
  isNaN_of_store (by rw [unpacked_sub, hx, hy]; cases s <;> rfl)

lemma unpacked_infinity_sub_infinity {s t : Sign} (hst : s ≠ t) (hx : unpacked x = .infinity s)
    (hy : unpacked y = .infinity t) : unpacked (x - y) = .infinity s := by
  rw [unpacked_sub, hx, hy]
  cases s <;> cases t
  exacts [absurd rfl hst, store_infinity _, store_infinity _, absurd rfl hst]

lemma isNaN_sub_of_left (h : x.isNaN = true) : (x - y).isNaN = true :=
  isNaN_of_store (by rw [unpacked_sub, unpacked_of_isNaN h]; rfl)

lemma isNaN_sub_of_right (h : y.isNaN = true) : (x - y).isNaN = true :=
  isNaN_of_store (by rw [unpacked_sub, unpacked_of_isNaN h]; cases unpacked x <;> rfl)

lemma not_isNaN_sub_of_isFinite (hx : x.isNaN = false) (hy : y.isFinite) :
    (x - y).isNaN = false := by
  rcases isFinite_or_infinity (f := unpacked x) hx with hxf | ⟨s, hs⟩
  · exact (approximates_sub hxf hy).not_isNaN
  · rw [← isNaN_unpacked, unpacked_infinity_sub hs hy]
    rfl

/-! ### Order -/

/-- Taking away the same keeps the order. -/
lemma value_sub_mono (hy : y.isFinite) (h : value x ≤ value x') :
    value (x - y) ≤ value (x' - y) := by
  refine value_mono (g := (· - y)) (f := (· - real y)) (fun r s hrs => sub_le_sub_right hrs _)
    (fun x hx => (approximates_sub hx hy).value) (fun x hx => ?_) (fun x hx => ?_) h
  · rcases hnan : x.isNaN with _ | _
    · rw [value_eq_top_iff hnan] at hx
      rw [value, unpacked_infinity_sub hx hy]
      rfl
    · exact value_of_isNaN (isNaN_sub_of_left hnan)
  · rw [value_eq_bot_iff] at hx ⊢
    exact unpacked_infinity_sub hx hy

/-- Taking away more leaves no more. -/
lemma value_sub_anti (hx : x.isFinite) (hy : y.isFinite) (hy' : y'.isFinite)
    (h : value y ≤ value y') : value (x - y') ≤ value (x - y) := by
  rw [value_of_isFinite hy, value_of_isFinite hy', EReal.coe_le_coe_iff] at h
  rw [(approximates_sub hx hy').value, (approximates_sub hx hy).value]
  exact rounded_mono (sub_le_sub_left h _)

/-! ### The opposite -/

lemma unpacked_neg (x : Float) : unpacked (-x) = (unpacked x).neg := by
  have hstore : unpacked (-x) = store (unpacked x).neg := rfl
  obtain ⟨hnormal, hrange⟩ := unpack_normal x.toModel
  rw [hstore]
  change store (UnpackedFloat.neg x.toModel.unpack) = UnpackedFloat.neg x.toModel.unpack
  cases hx : x.toModel.unpack with
  | notANumber => exact store_notANumber
  | infinity s => exact store_infinity _
  | zero s => exact store_zero _
  | finite s m e hm =>
    rw [hx] at hnormal hrange
    exact store_of_le (s := -s) hnormal hrange

lemma isNaN_neg (x : Float) : (-x).isNaN = x.isNaN := by
  rw [← isNaN_unpacked, ← isNaN_unpacked, unpacked_neg]
  cases unpacked x <;> rfl

lemma value_neg (hx : x.isNaN = false) : value (-x) = -value x := by
  rcases isFinite_or_infinity (f := unpacked x) hx with hxf | ⟨s, hs⟩
  · obtain ⟨hfinite, hreal⟩ := real_neg hxf
    rw [value_of_isFinite hfinite, value_of_isFinite hxf, hreal, EReal.coe_neg]
  · rw [value, value, unpacked_neg, hs]
    cases s
    exacts [EReal.neg_bot.symm, EReal.neg_top.symm]

/-- Two minus signs cancel in a product, zeros and infinities included. -/
lemma unpacked_neg_mul_neg (x y : Float) : unpacked (-x * -y) = unpacked (x * y) := by
  have hsign (s t : Sign) : -s * -t = s * t := by cases s <;> cases t <;> rfl
  rw [unpacked_mul, unpacked_mul, unpacked_neg, unpacked_neg]
  congr 1
  cases unpacked x <;> cases unpacked y <;>
    simp [UnpackedFloat.mul, UnpackedFloat.neg, hsign]

lemma rounded_opposite (r : ℝ) : rounded (-r) = -rounded r := by
  have hlimit := limit_pos
  rw [rounded, rounded, nearest_neg]
  rcases le_or_gt limit (nearest r) with hhigh | hhigh
  · rw [overflow_of_le hhigh, overflow_of_le_neg (neg_le_neg hhigh), EReal.neg_top]
  rcases le_or_gt (nearest r) (-limit) with hlow | hlow
  · rw [overflow_of_le_neg hlow, overflow_of_le (le_neg_of_le_neg hlow), EReal.neg_bot]
  · have habs : |nearest r| < limit := abs_lt.2 ⟨hlow, hhigh⟩
    rw [overflow_of_abs_lt habs, overflow_of_abs_lt (by rwa [abs_neg]), EReal.coe_neg]

/-- **The other way round** a difference has the opposite value, if it is a number. -/
theorem sub_swap (x y : Float) : (y - x).isNaN = (x - y).isNaN ∧
    ((x - y).isNaN = false → value (y - x) = -value (x - y)) := by
  rcases hx : x.isNaN with _ | _
  case true =>
    have hnan := isNaN_sub_of_left (y := y) hx
    exact ⟨(isNaN_sub_of_right hx).trans hnan.symm, fun h => Bool.noConfusion (hnan.symm.trans h)⟩
  rcases hy : y.isNaN with _ | _
  case true =>
    have hnan := isNaN_sub_of_right (x := x) hy
    exact ⟨(isNaN_sub_of_left hy).trans hnan.symm, fun h => Bool.noConfusion (hnan.symm.trans h)⟩
  rcases isFinite_or_infinity (f := unpacked x) hx with hxf | ⟨s, hs⟩ <;>
    rcases isFinite_or_infinity (f := unpacked y) hy with hyf | ⟨t, ht⟩
  · have h := approximates_sub hxf hyf
    have h' := approximates_sub hyf hxf
    refine ⟨h'.not_isNaN.trans h.not_isNaN.symm, fun _ => ?_⟩
    rw [h.value, h'.value, ← rounded_opposite, neg_sub]
  · rw [← isNaN_unpacked, ← isNaN_unpacked, value, value, unpacked_infinity_sub ht hxf,
      unpacked_sub_infinity hxf ht]
    cases t
    exacts [⟨rfl, fun _ => EReal.neg_top.symm⟩, ⟨rfl, fun _ => EReal.neg_bot.symm⟩]
  · rw [← isNaN_unpacked, ← isNaN_unpacked, value, value, unpacked_infinity_sub hs hyf,
      unpacked_sub_infinity hyf hs]
    cases s
    exacts [⟨rfl, fun _ => EReal.neg_bot.symm⟩, ⟨rfl, fun _ => EReal.neg_top.symm⟩]
  · by_cases hst : s = t
    · have hnan := isNaN_infinity_sub_infinity hs (hst ▸ ht)
      exact ⟨(isNaN_infinity_sub_infinity (hst ▸ ht) hs).trans hnan.symm,
        fun h => Bool.noConfusion (hnan.symm.trans h)⟩
    · rw [← isNaN_unpacked, ← isNaN_unpacked, value, value,
        unpacked_infinity_sub_infinity hst hs ht,
        unpacked_infinity_sub_infinity (Ne.symm hst) ht hs]
      cases s <;> cases t
      exacts [absurd rfl hst, ⟨rfl, fun _ => EReal.neg_bot.symm⟩,
        ⟨rfl, fun _ => EReal.neg_top.symm⟩, absurd rfl hst]

/-! ### Signs -/

/-- What is not below another number has no difference below zero from it. -/
lemma value_sub_nonneg (h : ¬y < x) : 0 ≤ value (y - x) := by
  rcases hx : x.isNaN with _ | _
  case true => exact value_of_isNaN (isNaN_sub_of_right hx) ▸ le_top
  rcases hy : y.isNaN with _ | _
  case true => exact value_of_isNaN (isNaN_sub_of_left hy) ▸ le_top
  rw [lt_iff_value hy hx, not_lt] at h
  rcases isFinite_or_infinity (f := unpacked x) hx with hxf | ⟨s, hs⟩
  · have hself : value (x - x) = 0 := by
      rw [(approximates_sub hxf hxf).value, sub_self, rounded_zero]
    exact hself ▸ value_sub_mono hxf h
  cases s with
  | positive =>
    -- nothing is greater, and infinity less itself is no number
    have htop : value y = ⊤ := top_le_iff.1 (by rwa [value, hs] at h)
    exact value_of_isNaN (isNaN_infinity_sub_infinity ((value_eq_top_iff hy).1 htop) hs) ▸ le_top
  | negative =>
    rcases isFinite_or_infinity (f := unpacked y) hy with hyf | ⟨t, ht⟩
    · rw [value, unpacked_sub_infinity hyf hs]
      exact le_top
    · cases t with
      | positive =>
        rw [value, unpacked_infinity_sub_infinity (by simp) ht hs]
        exact le_top
      | negative => exact value_of_isNaN (isNaN_infinity_sub_infinity ht hs) ▸ le_top

lemma value_neg_sub_nonneg (h : ¬x < y) : 0 ≤ value (-(y - x)) := by
  rcases hnan : (y - x).isNaN with _ | _
  · rw [value_neg hnan, ← (sub_swap y x).2 hnan]
    exact value_sub_nonneg h
  · exact value_of_isNaN ((isNaN_neg _).trans hnan) ▸ le_top

/-- **Steps the same way.** Two differences that are not below zero have no product below zero, and
neither have two that are not above it. -/
theorem not_mul_sub_lt_zero {a b c : Float} (h : ¬b < a ∧ ¬c < b ∨ ¬a < b ∧ ¬b < c) :
    ¬(b - a) * (c - b) < 0.0 := by
  have hproduct : 0 ≤ value ((b - a) * (c - b)) := by
    rcases h with ⟨hab, hbc⟩ | ⟨hab, hbc⟩
    · exact ((Below.refl (value_sub_nonneg hab)).mul (.refl (value_sub_nonneg hbc))).nonneg
    · rw [value, ← unpacked_neg_mul_neg, ← value]
      exact ((Below.refl (value_neg_sub_nonneg hab)).mul (.refl (value_neg_sub_nonneg hbc))).nonneg
  exact fun hlt => (lt_iff.1 hlt).2.2.not_ge (value_zero ▸ hproduct)

end CodeComplexity.Double
