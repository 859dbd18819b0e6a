import CodeComplexity.Proofs.Double.Arithmetic

/-!
The operations on doubles.

What the arithmetic of unpacked numbers says of doubles proper: the sum of two finite doubles is
the double nearest to the sum of their reals, and likewise for the other operations. Small
integers are converted exactly both ways.
-/

namespace CodeComplexity.Double

open Float.Model Float.Model.UnpackedFloat

/-- A real as the double nearest to it has it, with infinities for what is too large. -/
noncomputable def rounded (x : ℝ) : EReal := overflow (nearest x)

lemma rounded_mono {r s : ℝ} (h : r ≤ s) : rounded r ≤ rounded s := overflow_mono (nearest_mono h)

lemma rounded_of_onGrid {r : ℝ} (h : OnGrid r) (hr : |r| < limit) : rounded r = r := by
  rw [rounded, nearest_of_onGrid h, overflow_of_abs_lt hr]

/-- What bounds a real bounds what it is rounded to, if it is a double. -/
lemma rounded_le_onGrid {r s : ℝ} (hs : OnGrid s) (hlt : |s| < limit) (h : r ≤ s) :
    rounded r ≤ s := rounded_of_onGrid hs hlt ▸ rounded_mono h

lemma onGrid_le_rounded {r s : ℝ} (hr : OnGrid r) (hlt : |r| < limit) (h : r ≤ s) :
    r ≤ rounded s := rounded_of_onGrid hr hlt ▸ rounded_mono h

@[simp] lemma rounded_zero : rounded 0 = 0 := by
  rw [rounded, nearest_zero, overflow_of_abs_lt (by simpa using limit_pos)]
  rfl

lemma rounded_nonneg {r : ℝ} (h : 0 ≤ r) : 0 ≤ rounded r := rounded_zero ▸ rounded_mono h

/-- A double is the one that a real is rounded to. -/
structure Approximates (z : Float) (r : ℝ) : Prop where
  not_isNaN : z.isNaN = false
  value : value z = rounded r

lemma Rounds.approximates {f : UnpackedFloat} {r : ℝ} {z : Float} (h : Rounds f r)
    (hz : unpacked z = store f) : Approximates z r where
  not_isNaN := by
    have hf := h.finite
    rw [← isNaN_unpacked, hz]
    cases f with
    | notANumber => simp [UnpackedFloat.isFinite] at hf
    | infinity s => simp [UnpackedFloat.isFinite] at hf
    | zero s => rw [store_zero]; rfl
    | finite s m e hm =>
      by_cases he : e ≤ 971
      · rw [store_of_le h.normal he]
        rfl
      · rw [store_of_lt (not_le.1 he)]
        rfl
  value := by rw [Double.value, hz, valueOf_store h.normal h.finite, h.real, rounded]

variable {x y : Float}

lemma approximates_add (hx : x.isFinite) (hy : y.isFinite) :
    Approximates (x + y) (real x + real y) :=
  (rounds_add (normal_unpacked x) (normal_unpacked y) hx hy).approximates rfl

lemma approximates_sub (hx : x.isFinite) (hy : y.isFinite) :
    Approximates (x - y) (real x - real y) :=
  (rounds_sub (normal_unpacked x) (normal_unpacked y) hx hy).approximates rfl

lemma approximates_mul (hx : x.isFinite) (hy : y.isFinite) :
    Approximates (x * y) (real x * real y) :=
  (rounds_mul (normal_unpacked x) (normal_unpacked y) hx hy).approximates rfl

lemma approximates_div (hx : x.isFinite) (hy : y.isFinite) (h0 : real y ≠ 0) :
    Approximates (x / y) (real x / real y) :=
  (rounds_div (normal_unpacked x) (normal_unpacked y) hx hy h0).approximates rfl

lemma approximates_sqrt (hx : x.isFinite) (h0 : 0 ≤ real x) : Approximates x.sqrt √(real x) :=
  (rounds_sqrt (normal_unpacked x) hx h0).approximates rfl

/-! ### Finite doubles -/

lemma onGrid_real (x : Float) : OnGrid (real x) := onGrid_realOf (normal_unpacked x)

/-- A double whose place is a real is finite. -/
lemma isFinite_of_value {r : ℝ} (h : value x = r) : x.isFinite ∧ real x = r := by
  have hfinite : x.isFinite := by
    unfold value at h
    rw [← isFinite_unpacked]
    cases hx : unpacked x with
    | notANumber => rw [hx] at h; exact absurd h (EReal.coe_ne_top r).symm
    | infinity s =>
      rw [hx] at h
      cases s
      exacts [absurd h (EReal.coe_ne_bot r).symm, absurd h (EReal.coe_ne_top r).symm]
    | zero s => rfl
    | finite s m e hm => rfl
  exact ⟨hfinite, by rwa [value_of_isFinite hfinite, EReal.coe_eq_coe_iff] at h⟩

lemma lt_iff_real (hx : x.isFinite) (hy : y.isFinite) : x < y ↔ real x < real y := by
  rw [lt_iff_value (not_isNaN_of_isFinite hx) (not_isNaN_of_isFinite hy), value_of_isFinite hx,
    value_of_isFinite hy, EReal.coe_lt_coe_iff]

lemma le_iff_real (hx : x.isFinite) (hy : y.isFinite) : x ≤ y ↔ real x ≤ real y := by
  rw [le_iff_value (not_isNaN_of_isFinite hx) (not_isNaN_of_isFinite hy), value_of_isFinite hx,
    value_of_isFinite hy, EReal.coe_le_coe_iff]

lemma beq_iff_real (hx : x.isFinite) (hy : y.isFinite) : (x == y) = true ↔ real x = real y := by
  rw [beq_iff_value (not_isNaN_of_isFinite hx) (not_isNaN_of_isFinite hy), value_of_isFinite hx,
    value_of_isFinite hy, EReal.coe_eq_coe_iff]

/-- The reals of doubles lie in the range. -/
lemma abs_real_lt (x : Float) : |real x| < limit := by
  obtain ⟨hn, hr⟩ := unpack_normal x.toModel
  unfold real unpacked
  cases hx : x.toModel.unpack with
  | notANumber => simpa [realOf] using limit_pos
  | infinity s => simpa [realOf] using limit_pos
  | zero s => simpa [realOf] using limit_pos
  | finite s m e hm =>
    rw [hx] at hn hr
    have hlt : m * 2 ^ e < limit := not_le.1 fun h => ((limit_le_iff hn).1 h).not_ge hr
    have hnonneg : (0 : ℝ) ≤ m * 2 ^ e := mul_nonneg m.cast_nonneg (two_zpow_pos e).le
    cases s <;> simpa [realOf, abs_of_nonneg hnonneg] using hlt

/-- An exact result is not rounded. -/
lemma Approximates.exact {r : ℝ} (h : Approximates x r) (hr : OnGrid r) (hlt : |r| < limit) :
    x.isFinite ∧ real x = r :=
  isFinite_of_value (h.value.trans (rounded_of_onGrid hr hlt))

lemma rounded_real (x : Float) : rounded (real x) = real x :=
  rounded_of_onGrid (onGrid_real x) (abs_real_lt x)

/-- What bounds an exact result bounds the double nearest to it. -/
lemma Approximates.value_le {r : ℝ} (h : Approximates x r) (hy : y.isFinite) (hle : r ≤ real y) :
    Double.value x ≤ Double.value y := by
  rw [h.value, value_of_isFinite hy]
  exact rounded_le_onGrid (onGrid_real y) (abs_real_lt y) hle

lemma Approximates.le_value {r : ℝ} (h : Approximates x r) (hy : y.isFinite) (hle : real y ≤ r) :
    Double.value y ≤ Double.value x := by
  rw [h.value, value_of_isFinite hy]
  exact onGrid_le_rounded (onGrid_real y) (abs_real_lt y) hle

@[simp] lemma real_zero : real 0.0 = 0 := rfl

lemma real_pos (hx : x.isFinite) (h : 0.0 < x) : 0 < real x :=
  real_zero ▸ (lt_iff_real rfl hx).1 h

lemma real_one : real 1.0 = 1 := by
  have h : unpacked 1.0 = .finite .positive (2 ^ 52) (-52) (by decide) := rfl
  rw [real_of_unpacked h]
  norm_num

lemma value_one : value 1.0 = 1 := by
  rw [value_of_isFinite (x := 1.0) rfl, real_one]
  rfl

/-! ### Signs -/

lemma real_neg (hx : x.isFinite) : (-x).isFinite ∧ real (-x) = -real x := by
  have hn := normal_unpacked x
  have h : Rounds (unpacked x).neg (-realOf (unpacked x)) := by
    rcases zero_or_finite (f := unpacked x) hx with ⟨s, hf⟩ | ⟨s, m, e, hm, hf⟩ <;> rw [hf] at hn ⊢
    · rw [realOf_zero, neg_zero]
      exact rounds_zero
    · have h : Rounds (.finite (-s) m e hm) (realOf (.finite (-s) m e hm)) := .self hn rfl
      rwa [realOf, factor_neg, neg_mul] at h
  exact (h.approximates (z := -x) rfl).exact (onGrid_real x).neg
    (by rw [abs_neg]; exact abs_real_lt x)

lemma real_abs (hx : x.isFinite) : x.abs.isFinite ∧ real x.abs = |real x| := by
  have hn := normal_unpacked x
  have h : Rounds (unpacked x).abs |realOf (unpacked x)| := by
    rcases zero_or_finite (f := unpacked x) hx with ⟨s, hf⟩ | ⟨s, m, e, hm, hf⟩ <;> rw [hf] at hn ⊢
    · rw [realOf_zero, abs_zero]
      exact rounds_zero
    · have h : Rounds (.finite .positive m e hm) (realOf (.finite .positive m e hm)) :=
        .self hn rfl
      have habs : |realOf (.finite s m e hm)| = realOf (.finite .positive m e hm) := by
        cases s
        · rw [abs_of_neg realOf_neg, realOf, realOf, factor_negative, factor_positive]
          ring
        · exact abs_of_pos realOf_pos
      rwa [habs]
  exact (h.approximates (z := x.abs) rfl).exact (onGrid_real x).abs
    (by rw [abs_abs]; exact abs_real_lt x)

/-! ### Integers -/

lemma natCast_lt_limit {n : ℕ} (h : n < 2 ^ 53) : |(n : ℝ)| < limit := by
  have hlt : (n : ℝ) < 2 ^ (53 : ℤ) := by exact_mod_cast h
  rw [Nat.abs_cast]
  exact hlt.trans (two_zpow_lt.2 (by norm_num))

/-- Converting a small integer is exact. -/
theorem real_ofNat {n : ℕ} (h : n < 2 ^ 53) :
    (Float.ofNat n).isFinite ∧ real (Float.ofNat n) = n := by
  have hconvert : Approximates n.toUInt64.toFloat n := by
    have hn : n.toUInt64.toNat = n := by
      rw [Nat.toUInt64_eq, UInt64.toNat_ofNat']
      omega
    have h := rounds_normalize n.toUInt64.toNat 0 .positive
    rw [hn, zpow_zero, mul_one] at h
    refine h.approximates (z := n.toUInt64.toFloat) ?_
    change store (UnpackedFloat.normalize Format.binary64 n.toUInt64.toNat 0 .positive) = _
    rw [hn]
  obtain ⟨hfinite, hreal⟩ := hconvert.exact (onGrid_natCast h) (natCast_lt_limit h)
  have hone : (Float.ofBits 0x3FF0000000000000).isFinite ∧
      real (Float.ofBits 0x3FF0000000000000) = 1 := ⟨rfl, real_one⟩
  have hunfold : Float.ofNat n = n.toUInt64.toFloat * Float.ofBits 0x3FF0000000000000 := by
    change Float.ofScientific n false 0 = _
    rw [Float.ofScientific, dif_pos ⟨h, by decide⟩]
    rfl
  have hprod := approximates_mul hfinite hone.1
  rw [hreal, hone.2, mul_one] at hprod
  rw [hunfold]
  exact hprod.exact (onGrid_natCast h) (natCast_lt_limit h)

lemma real_of_eq_ofNat {x : Float} {n : ℕ} (hx : x = Float.ofNat n) (h : n < 2 ^ 53) : real x = n :=
  hx ▸ (real_ofNat h).2

lemma real_two : real 2.0 = 2 := real_of_eq_ofNat (n := 2) (by decide) (by decide)

lemma roundToInt_positive (m : ℕ) (e : ℤ) : roundToInt .positive m e = ⌊(m : ℝ) * 2 ^ e⌋ := by
  have hself (n : ℕ) : StandsFor (ExtendedMantissa.ofMantissaAndAccuracy n .exact) n :=
    standsFor_ofMantissaAndAccuracy (by simp [Tail])
  unfold roundToInt
  rcases le_total 0 e with he | he
  · obtain ⟨k, hk, hdec⟩ := decreaseExponent_eq m he
    rw [hdec]
    have h := ((hself (m * 2 ^ k)).shiftRight 0).floor
    rw [hk, zero_add, zpow_natCast]
    rw [pow_zero, div_one] at h
    push_cast at h
    rw [h]
    rfl
  · obtain ⟨k, rfl⟩ : ∃ k : ℕ, e = -k := ⟨(-e).toNat, by omega⟩
    have hdec : decreaseExponent m (-(k : ℤ)) 0 = (m, -(k : ℤ)) := by
      unfold decreaseExponent
      rw [show (-(k : ℤ) - 0).toNat = 0 by omega]
      simp
    have h := ((hself m).shiftRight k).floor
    rw [hdec, zpow_neg, zpow_natCast, ← div_eq_mul_inv, h]
    unfold shiftToExponent
    simp only [show (0 - -(k : ℤ)).toNat = k by omega]
    rfl

/-- Converting to an integer cuts off what stands behind the point. -/
lemma toInt_unpacked (hx : x.isFinite) (h0 : 0 ≤ real x) (low high : ℤ) :
    (unpacked x).toInt low high = ⌊real x⌋ := by
  unfold real at h0 ⊢
  rcases zero_or_finite (f := unpacked x) hx with ⟨s, hf⟩ | ⟨s, m, e, hm, hf⟩ <;> rw [hf] at h0 ⊢
  · simp [UnpackedFloat.toInt]
  · cases s with
    | negative => exact absurd realOf_neg h0.not_gt
    | positive => rw [realOf_positive]; exact roundToInt_positive m e

theorem toUInt64_eq (hx : x.isFinite) (h0 : 0 ≤ real x) (h : real x < 2 ^ 64) :
    x.toUInt64.toNat = ⌊real x⌋₊ := by
  have hlt : ⌊real x⌋₊ < UInt64.size := (Nat.floor_lt h0).2 (by exact_mod_cast h)
  change (UInt64.ofNatClamp ((unpacked x).toInt 0 (UInt64.size - 1)).toNat).toNat = _
  rw [toInt_unpacked hx h0, Int.floor_toNat, UInt64.ofNatClamp, dif_pos hlt]
  rfl

theorem toUInt8_eq (hx : x.isFinite) (h0 : 0 ≤ real x) (h : real x < 2 ^ 8) :
    x.toUInt8.toNat = ⌊real x⌋₊ := by
  have hlt : ⌊real x⌋₊ < UInt8.size := (Nat.floor_lt h0).2 (by exact_mod_cast h)
  change (UInt8.ofNatClamp ((unpacked x).toInt 0 (UInt8.size - 1)).toNat).toNat = _
  rw [toInt_unpacked hx h0, Int.floor_toNat, UInt8.ofNatClamp, dif_pos hlt]
  rfl

end CodeComplexity.Double
