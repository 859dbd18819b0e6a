import CodeComplexity.Proofs.Double.Plain

/-!
Minus signs.

A double is known by what it unpacks to, also the one that is no number. So the order of two factors
does not matter to the bit, and a minus sign in a product or a quotient may be taken out of it,
whether the result is rounded, runs off the range, vanishes or is no number.
-/

namespace CodeComplexity.Double

open Float.Model Float.Model.UnpackedFloat

variable {x y : Float}

/-! ### What a double unpacks to -/

lemma toBits_of_isNaN (h : x.isNaN = true) : x.toBits.toBitVec = packedNaN Format.binary64 := by
  have hunpack : UnpackedFloat.unpack Format.binary64 x.toModel.toBits.toBitVec = .notANumber :=
    unpacked_of_isNaN h
  unfold UnpackedFloat.unpack at hunpack
  dsimp only at hunpack
  split_ifs at hunpack with hexp hmant
  exact x.toModel.valid.eq_packedNaN hexp hmant

/-- **A double is what it unpacks to.** -/
theorem eq_of_unpacked (h : unpacked x = unpacked y) : x = y := by
  have hnumber : y.isNaN = x.isNaN := by rw [← isNaN_unpacked, ← h, isNaN_unpacked]
  rcases hx : x.isNaN with _ | _
  · exact eq_of_value_eq hx (hnumber.trans hx) (congrArg valueOf h) (congrArg signOf h)
  · refine toBits_injective (UInt64.toBitVec_inj.1 ?_)
    rw [toBits_of_isNaN hx, toBits_of_isNaN (hnumber.trans hx)]

/-! ### Signs -/

lemma sign_mul_comm (s t : Sign) : s * t = t * s := by cases s <;> cases t <;> rfl

lemma neg_sign_mul (s t : Sign) : -s * t = -(s * t) := by cases s <;> cases t <;> rfl

lemma neg_sign_div (s t : Sign) : -s / t = -(s / t) := by cases s <;> cases t <;> rfl

/-- Rounding hands the sign through. -/
lemma roundWithAccuracy_neg (s : Sign) (m : ℕ) (e : ℤ) (a : Accuracy) :
    roundWithAccuracy Format.binary64 (-s) m e a =
      (roundWithAccuracy Format.binary64 s m e a).neg := by
  unfold roundWithAccuracy
  dsimp only
  split_ifs <;> rfl

lemma unpack_packComponents_neg (s : Sign) (b : BitVec 11) (k : BitVec 52) :
    UnpackedFloat.unpack Format.binary64 (packComponents Format.binary64 (-s) b k) =
      (UnpackedFloat.unpack Format.binary64 (packComponents Format.binary64 s b k)).neg := by
  rw [unpack_packComponents, unpack_packComponents]
  split_ifs <;> rfl

/-- Packing hands the sign through. -/
lemma exists_packComponents (m : ℕ) (e : ℤ) (hm : 0 < m) : ∃ (b : BitVec 11) (k : BitVec 52),
    ∀ s, UnpackedFloat.pack Format.binary64 (.finite s m e hm) =
      packComponents Format.binary64 s b k := by
  simp only [pack_finite]
  split_ifs
  exacts [⟨_, _, fun _ => rfl⟩, ⟨_, _, fun _ => rfl⟩, ⟨_, _, fun _ => rfl⟩]

lemma store_neg (f : UnpackedFloat) : store f.neg = (store f).neg := by
  cases f with
  | notANumber => rw [UnpackedFloat.neg, store_notANumber, UnpackedFloat.neg]
  | infinity s => rw [UnpackedFloat.neg, store_infinity, store_infinity, UnpackedFloat.neg]
  | zero s => rw [UnpackedFloat.neg, store_zero, store_zero, UnpackedFloat.neg]
  | finite s m e hm =>
    obtain ⟨b, k, hpack⟩ := exists_packComponents m e hm
    rw [UnpackedFloat.neg, store_packed (hpack _), store_packed (hpack _),
      unpack_packComponents_neg]

/-! ### Products and quotients -/

lemma mul_swap (x y : Float) : x * y = y * x := by
  refine eq_of_unpacked ?_
  rw [unpacked_mul, unpacked_mul]
  congr 1
  cases unpacked x <;> cases unpacked y <;>
    simp [UnpackedFloat.mul, sign_mul_comm, Nat.mul_comm, Int.add_comm]

lemma opposite_mul (x y : Float) : -x * y = -(x * y) := by
  refine eq_of_unpacked ?_
  rw [unpacked_neg, unpacked_mul, unpacked_mul, unpacked_neg, ← store_neg]
  congr 1
  cases unpacked x <;> cases unpacked y <;>
    simp [UnpackedFloat.mul, UnpackedFloat.neg, neg_sign_mul, roundWithAccuracy_neg]

lemma opposite_div (x y : Float) : -x / y = -(x / y) := by
  refine eq_of_unpacked ?_
  rw [unpacked_neg, unpacked_div, unpacked_div, unpacked_neg, ← store_neg]
  congr 1
  cases unpacked x <;> cases unpacked y <;>
    simp [UnpackedFloat.div, UnpackedFloat.neg, neg_sign_div, roundWithAccuracy_neg]

lemma opposite_mul_opposite (x y : Float) : -x * -y = x * y :=
  eq_of_unpacked (unpacked_neg_mul_neg x y)

/-! ### Zeros -/

lemma zero_mul_of_pos (hx : x.isFinite) (h : 0.0 < x) : 0.0 * x = 0.0 := by
  obtain ⟨m, e, hm, hf, -, -⟩ := unpacked_of_pos hx h
  refine eq_of_unpacked ?_
  rw [unpacked_mul, hf]
  exact store_zero _

lemma zero_div_of_pos (hx : x.isFinite) (h : 0.0 < x) : 0.0 / x = 0.0 := by
  obtain ⟨m, e, hm, hf, -, -⟩ := unpacked_of_pos hx h
  refine eq_of_unpacked ?_
  rw [unpacked_div, hf]
  exact store_zero _

/-! ### Magnitudes -/

lemma opposite_opposite (x : Float) : - -x = x := by
  refine eq_of_unpacked ?_
  rw [unpacked_neg, unpacked_neg]
  cases unpacked x with
  | notANumber => rfl
  | infinity s | zero s | finite s m e hm => cases s <;> rfl

lemma abs_opposite (x : Float) : (-x).abs = x.abs := by
  refine eq_of_unpacked ?_
  rw [unpacked_abs_eq, unpacked_abs_eq, unpacked_neg]
  cases unpacked x <;> rfl

lemma opposite_lt_zero_iff : -x < 0.0 ↔ 0.0 < x := by
  rcases hx : x.isNaN with _ | _
  · rw [lt_iff_value ((isNaN_neg x).trans hx) rfl, lt_iff_value rfl hx, value_neg hx, value_zero,
      EReal.neg_lt_zero]
  · have hneg := (isNaN_neg x).trans hx
    exact iff_of_false (fun hlt => Bool.noConfusion (hneg.symm.trans (lt_iff.1 hlt).1))
      (fun hlt => Bool.noConfusion (hx.symm.trans (lt_iff.1 hlt).2.1))

lemma zero_lt_opposite_iff : 0.0 < -x ↔ x < 0.0 := by
  rw [← opposite_lt_zero_iff, opposite_opposite]

lemma abs_of_zero_lt (h : 0.0 < x) : x.abs = x := by
  refine Plain.abs_eq ⟨?_, ?_⟩
  · obtain ⟨hzero, hx, hlt⟩ := lt_iff.1 h
    exact le_iff.2 ⟨hzero, hx, hlt.le⟩
  · rintro rfl
    exact absurd h (by decide)

lemma abs_of_lt_zero (h : x < 0.0) : x.abs = -x := by
  rw [← abs_opposite, abs_of_zero_lt (zero_lt_opposite_iff.2 h)]

end CodeComplexity.Double
