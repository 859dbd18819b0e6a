import CodeComplexity.Proofs.Double.Opposite
import CodeComplexity.Proofs.Double.Underflow

/-!
Doubles up to the sign of a zero.

Two doubles are alike if they are the same or zeros both. Sums and products of what is alike are
alike, and magnitudes are the same. A difference is alike to the opposite of the one taken the other
way; only where it vanishes do the signs differ. A double without a minus sign is told from all that
are alike to it, and squares, sums, roots and quotients of such doubles are of that kind.
-/

namespace CodeComplexity.Double

open Float.Model Float.Model.UnpackedFloat

/-- Unpacked numbers that are the same, but for the sign of a zero. -/
inductive Twin : UnpackedFloat → UnpackedFloat → Prop
  | refl (f : UnpackedFloat) : Twin f f
  | zeros (s t : Sign) : Twin (.zero s) (.zero t)

section Unpacked

variable {f f' g g' : UnpackedFloat}

lemma Twin.store (h : Twin f g) : Twin (store f) (store g) := by
  cases h with
  | refl => exact .refl _
  | zeros s t =>
    rw [store_zero, store_zero]
    exact .zeros s t

lemma Twin.mul (h : Twin f f') (h' : Twin g g') :
    Twin (UnpackedFloat.mul Format.binary64 f g) (UnpackedFloat.mul Format.binary64 f' g') := by
  cases h <;> cases h'
  case refl.refl => exact .refl _
  case refl.zeros s t =>
    cases f with
    | notANumber | infinity u => exact .refl _
    | zero u | finite u m e hm => exact .zeros _ _
  case zeros.refl s t =>
    cases g with
    | notANumber | infinity u => exact .refl _
    | zero u | finite u m e hm => exact .zeros _ _
  case zeros.zeros => exact .zeros _ _

lemma add_zero_zero (s t : Sign) :
    ∃ u, UnpackedFloat.add Format.binary64 (.zero s) (.zero t) = .zero u := by
  cases s <;> cases t <;> exact ⟨_, rfl⟩

lemma twin_add_zeros (s t u v : Sign) :
    Twin (UnpackedFloat.add Format.binary64 (.zero s) (.zero t))
      (UnpackedFloat.add Format.binary64 (.zero u) (.zero v)) := by
  obtain ⟨a, ha⟩ := add_zero_zero s t
  obtain ⟨b, hb⟩ := add_zero_zero u v
  rw [ha, hb]
  exact .zeros a b

lemma Twin.add (h : Twin f f') (h' : Twin g g') :
    Twin (UnpackedFloat.add Format.binary64 f g) (UnpackedFloat.add Format.binary64 f' g') := by
  cases h <;> cases h'
  case refl.refl => exact .refl _
  -- only a zero lets the sign of the zero that is added to it through
  case refl.zeros s t =>
    cases f with
    | notANumber | infinity u | finite u m e hm => exact .refl _
    | zero u => exact twin_add_zeros u s u t
  case zeros.refl s t =>
    cases g with
    | notANumber | infinity u | finite u m e hm => exact .refl _
    | zero u => exact twin_add_zeros s u t u
  case zeros.zeros s t u v => exact twin_add_zeros s u t v

lemma Twin.abs_eq (h : Twin f g) : f.abs = g.abs := by cases h <;> rfl

lemma Twin.eq_or_zeros (h : Twin f g) : f = g ∨ (∃ s, f = .zero s) ∧ ∃ t, g = .zero t := by
  cases h with
  | refl => exact .inl rfl
  | zeros s t => exact .inr ⟨⟨s, rfl⟩, t, rfl⟩

end Unpacked

variable {x x' y y' : Float}

/-- Doubles that are the same, but for the sign of a zero. -/
def Alike (x y : Float) : Prop := Twin (unpacked x) (unpacked y)

lemma Alike.refl (x : Float) : Alike x x := Twin.refl _

lemma Alike.eq_or_zeros (h : Alike x y) : x = y ∨ (x == 0.0) = true ∧ (y == 0.0) = true := by
  rw [beq_zero_iff, beq_zero_iff]
  exact (Twin.eq_or_zeros h).imp_left eq_of_unpacked

lemma alike_of_zeros (hx : (x == 0.0) = true) (hy : (y == 0.0) = true) : Alike x y := by
  obtain ⟨s, hs⟩ := beq_zero_iff.1 hx
  obtain ⟨t, ht⟩ := beq_zero_iff.1 hy
  rw [Alike, hs, ht]
  exact .zeros s t

lemma signOf_of_neg (h : value x < 0) : signOf (unpacked x) = .negative := by
  rcases unpacked_of_value_neg h with hx | ⟨m, e, hm, hx⟩ <;> rw [hx] <;> rfl

/-- **Numbers of one value are alike**, and so are doubles that are no numbers. -/
theorem alike_of_value (hnumber : x.isNaN = y.isNaN) (h : value x = value y) : Alike x y := by
  rcases hx : x.isNaN with _ | _
  case true =>
    rw [Alike, unpacked_of_isNaN hx, unpacked_of_isNaN (hnumber.symm.trans hx)]
    exact .refl _
  have hy := hnumber.symm.trans hx
  have hsame (hsign : signOf (unpacked x) = signOf (unpacked y)) : Alike x y :=
    eq_of_value_eq hx hy h hsign ▸ .refl x
  rcases lt_trichotomy (value x) 0 with hneg | hzero | hpos
  · exact hsame ((signOf_of_neg hneg).trans (signOf_of_neg (h ▸ hneg)).symm)
  · exact alike_of_zeros (beq_iff.2 ⟨hx, rfl, hzero⟩) (beq_iff.2 ⟨hy, rfl, h ▸ hzero⟩)
  · exact hsame ((signOf_of_pos hpos).trans (signOf_of_pos (h ▸ hpos)).symm)

lemma alike_of_real (hx : x.isFinite) (hy : y.isFinite) (h : real x = real y) : Alike x y := by
  refine alike_of_value ((not_isNaN_of_isFinite hx).trans (not_isNaN_of_isFinite hy).symm) ?_
  rw [value_of_isFinite hx, value_of_isFinite hy, h]

lemma Alike.add (h : Alike x x') (h' : Alike y y') : Alike (x + y) (x' + y') :=
  (Twin.add h h').store

lemma Alike.mul (h : Alike x x') (h' : Alike y y') : Alike (x * y) (x' * y') :=
  (Twin.mul h h').store

lemma Alike.abs_eq (h : Alike x y) : x.abs = y.abs :=
  eq_of_unpacked (by rw [unpacked_abs_eq, unpacked_abs_eq, Twin.abs_eq h])

/-! ### Differences -/

/-- **The other way round** a difference is the opposite one, but for the sign of a zero. -/
theorem alike_sub_swap (x y : Float) : Alike (y - x) (-(x - y)) := by
  obtain ⟨hnumber, hvalue⟩ := sub_swap x y
  refine alike_of_value (hnumber.trans (isNaN_neg _).symm) ?_
  rcases hnan : (x - y).isNaN with _ | _
  · rw [hvalue hnan, value_neg hnan]
  · rw [value_of_isNaN (hnumber.trans hnan), value_of_isNaN ((isNaN_neg _).trans hnan)]

lemma abs_sub_swap (x y : Float) : (y - x).abs = (x - y).abs := by
  rw [(alike_sub_swap x y).abs_eq, abs_opposite]

lemma alike_sub_self (hx : x.isFinite) : Alike (x - x) 0.0 := by
  have h := approximates_sub hx hx
  rw [sub_self] at h
  exact alike_of_value h.not_isNaN (h.value.trans rounded_zero)

/-! ### No minus sign -/

/-- A double that carries no minus sign: a number from the positive zero on, or no number. -/
def NoMinus (x : Float) : Prop := signOf (unpacked x) = .positive

lemma NoMinus.not_lt (h : NoMinus x) : ¬x < 0.0 := fun hlt =>
  Sign.noConfusion (h.symm.trans (signOf_of_neg (value_zero ▸ (lt_iff.1 hlt).2.2)))

lemma NoMinus.ne (h : NoMinus x) : x ≠ -0.0 := by
  rintro rfl
  exact Sign.noConfusion h

/-- What is alike and has no minus sign is the same. -/
lemma Alike.eq (h : Alike x y) (hx : NoMinus x) (hy : NoMinus y) : x = y := by
  rcases h.eq_or_zeros with heq | ⟨hx0, hy0⟩
  · exact heq
  · obtain ⟨hnumber, -, hzero⟩ := beq_iff.1 hx0
    obtain ⟨hnumber', -, hzero'⟩ := beq_iff.1 hy0
    rw [(eq_zero_or_neg_zero hnumber hzero).resolve_right hx.ne,
      (eq_zero_or_neg_zero hnumber' hzero').resolve_right hy.ne]

lemma Plain.noMinus (h : Plain x) : NoMinus x := by
  rcases h.value_nonneg.eq_or_lt with hzero | hpos
  · rw [(eq_zero_or_neg_zero (not_isNaN_of_zero_le h.nonneg) hzero.symm).resolve_right h.ne]
    rfl
  · exact signOf_of_pos hpos

lemma signOf_unpack_packComponents (b : BitVec 11) (k : BitVec 52) :
    signOf (UnpackedFloat.unpack Format.binary64
      (packComponents Format.binary64 .positive b k)) = .positive := by
  rw [unpack_packComponents]
  split_ifs <;> rfl

lemma signOf_store {f : UnpackedFloat} (h : signOf f = .positive) :
    signOf (store f) = .positive := by
  cases f with
  | notANumber => rwa [store_notANumber]
  | infinity s => rwa [store_infinity]
  | zero s => rwa [store_zero]
  | finite s m e hm =>
    obtain ⟨b, k, hpack⟩ := exists_packComponents m e hm
    obtain rfl : s = .positive := h
    rw [store_packed (hpack _), signOf_unpack_packComponents]

lemma signOf_roundWithAccuracy (s : Sign) (m : ℕ) (e : ℤ) (a : Accuracy) :
    signOf (roundWithAccuracy Format.binary64 s m e a) = s := by
  unfold roundWithAccuracy
  dsimp only
  split_ifs <;> rfl

lemma signOf_normalize {n : ℤ} (hn : 0 ≤ n) (e : ℤ) :
    signOf (UnpackedFloat.normalize Format.binary64 n e .positive) = .positive := by
  unfold UnpackedFloat.normalize
  rcases hn.eq_or_lt with rfl | hpos
  · rw [compare_eq_iff_eq.2 rfl]
    rfl
  · rw [compare_gt_iff_gt.2 hpos]
    exact signOf_roundWithAccuracy ..

lemma noMinus_zero : NoMinus 0.0 := rfl

lemma noMinus_abs (x : Float) : NoMinus x.abs := by
  rw [NoMinus, unpacked_abs_eq]
  cases unpacked x <;> rfl

lemma noMinus_mul_self (x : Float) : NoMinus (x * x) := by
  rw [NoMinus, unpacked_mul]
  refine signOf_store ?_
  cases unpacked x with
  | notANumber => rfl
  | infinity s | zero s => cases s <;> rfl
  | finite s m e hm =>
    rw [UnpackedFloat.mul, signOf_roundWithAccuracy]
    cases s <;> rfl

lemma noMinus_ofNat {n : ℕ} (hn : n < 2 ^ 53) : NoMinus (Float.ofNat n) := by
  rcases n.eq_zero_or_pos with rfl | hpos
  · rfl
  · obtain ⟨hfinite, hreal⟩ := real_ofNat hn
    refine signOf_of_pos ?_
    rw [value_of_isFinite hfinite, hreal]
    exact_mod_cast hpos

lemma NoMinus.add (hx : NoMinus x) (hy : NoMinus y) : NoMinus (x + y) := by
  unfold NoMinus at *
  rw [unpacked_add]
  refine signOf_store ?_
  cases hf : unpacked x <;> rw [hf] at hx <;> cases hx <;>
    cases hg : unpacked y <;> rw [hg] at hy <;> cases hy
  case finite.refl.finite.refl =>
    exact signOf_normalize (add_nonneg (Int.natCast_nonneg _) (Int.natCast_nonneg _)) _
  all_goals rfl

lemma NoMinus.mul (hx : NoMinus x) (hy : NoMinus y) : NoMinus (x * y) := by
  unfold NoMinus at *
  rw [unpacked_mul]
  refine signOf_store ?_
  cases hf : unpacked x <;> rw [hf] at hx <;> cases hx <;>
    cases hg : unpacked y <;> rw [hg] at hy <;> cases hy
  case finite.refl.finite.refl => exact signOf_roundWithAccuracy ..
  all_goals rfl

lemma NoMinus.sqrt (hx : NoMinus x) : NoMinus x.sqrt := by
  unfold NoMinus at *
  rw [unpacked_sqrt]
  refine signOf_store ?_
  cases hf : unpacked x <;> rw [hf] at hx <;> cases hx
  case finite.refl => exact signOf_roundWithAccuracy ..
  all_goals rfl

lemma NoMinus.div (hx : NoMinus x) (hy : NoMinus y) : NoMinus (x / y) := by
  unfold NoMinus at *
  rw [unpacked_div]
  refine signOf_store ?_
  cases hf : unpacked x <;> rw [hf] at hx <;> cases hx <;>
    cases hg : unpacked y <;> rw [hg] at hy <;> cases hy
  case finite.refl.finite.refl => exact signOf_roundWithAccuracy ..
  all_goals rfl

end CodeComplexity.Double
