import CodeComplexity.DoubleBits
import CodeComplexity.Proofs.Double.Number

/-!
Doubles by their bits.

Without its sign bit the pattern of a double counts the doubles from zero up to its magnitude. So
the total order of patterns refines the order of numbers: it tells the two zeros apart and has a
place for what is no number, beyond the infinity of its sign.
-/

namespace CodeComplexity.Double

open Float.Model Float.Model.UnpackedFloat
open DoubleBits (signBit rank)

/-! ### Patterns -/

lemma rank_injective {a b : UInt64} (h : rank a = rank b) : a = b := by
  have ha := a.toNat_lt
  have hb := b.toNat_lt
  unfold rank signBit at h
  apply UInt64.toNat_inj.1
  split at h <;> split at h <;> omega

lemma toBits_injective {x y : Float} (h : x.toBits = y.toBits) : x = y := by
  obtain ⟨⟨a, _⟩⟩ := x
  obtain ⟨⟨b, _⟩⟩ := y
  obtain rfl : a = b := h
  rfl

section Fields

variable (b : BitVec 64)

lemma toNat_unpackMantissa :
    (@unpackMantissa Format.binary64 b).toNat = b.toNat % 0x10000000000000 := by
  simp [unpackMantissa]

lemma toNat_unpackExponent :
    (@unpackExponent Format.binary64 b).toNat = b.toNat / 0x10000000000000 % 0x800 := by
  simp [unpackExponent, Nat.shiftRight_eq_div_pow]

lemma ofBitVec_unpackSign : Sign.ofBitVec (@unpackSign Format.binary64 b) =
    if signBit ≤ b.toNat then .negative else .positive := by
  have hb := b.isLt
  have hbit : (@unpackSign Format.binary64 b).toNat = b.toNat / 0x8000000000000000 % 2 := by
    simp [unpackSign, Nat.shiftRight_eq_div_pow]
  unfold Sign.ofBitVec signBit
  by_cases h : 0x8000000000000000 ≤ b.toNat
  · rw [if_pos h, if_neg fun hzero => ?_]
    rw [hzero, BitVec.toNat_zero] at hbit
    omega
  · rw [if_neg h, if_pos]
    apply BitVec.eq_of_toNat_eq
    rw [hbit, BitVec.toNat_zero]
    omega

end Fields

/-! ### Counting doubles -/

def signOf : UnpackedFloat → Sign
  | .zero s | .infinity s | .finite s _ _ _ => s
  | .notANumber => .positive

/-- The number of doubles from zero up to the magnitude of a number. -/
def steps : UnpackedFloat → ℤ
  | .zero _ => 0
  | .finite _ m e _ => (e + 1074) * 2 ^ 52 + m
  | _ => 2047 * 2 ^ 52

/-- The place of a number among all: above the positive zero, or below the negative one, by the
number of doubles up to its magnitude. -/
def placeOf (f : UnpackedFloat) : ℤ :=
  match signOf f with
  | .positive => steps f
  | .negative => -1 - steps f

variable {x y : Float}

lemma signOf_unpacked (hx : x.isNaN = false) :
    signOf (unpacked x) = if signBit ≤ x.toBits.toNat then .negative else .positive := by
  have hsign : _ = if signBit ≤ x.toBits.toNat then _ else _ :=
    ofBitVec_unpackSign x.toModel.toBits.toBitVec
  rw [← isNaN_unpacked] at hx
  revert hx
  unfold unpacked Float.Model.unpack UnpackedFloat.unpack
  dsimp only
  split
  · split
    · exact fun _ => hsign
    · exact fun hx => Bool.noConfusion hx
  · split
    · split <;> exact fun _ => hsign
    · exact fun _ => hsign

lemma steps_unpacked (hx : x.isNaN = false) :
    steps (unpacked x) = (x.toBits.toNat % signBit : ℕ) := by
  have hmantissa : _ = x.toBits.toNat % _ := toNat_unpackMantissa x.toModel.toBits.toBitVec
  have hexponent : _ = x.toBits.toNat / _ % _ := toNat_unpackExponent x.toModel.toBits.toBitVec
  have hbias : ((Format.binary64.exponentBias : ℕ) : ℤ) = 1023 := by decide
  rw [← isNaN_unpacked] at hx
  revert hx
  unfold unpacked Float.Model.unpack UnpackedFloat.unpack signBit
  dsimp only
  split
  · rename_i hexp
    split
    · rename_i hman
      rw [hexp] at hexponent
      rw [hman] at hmantissa
      simp only [steps, BitVec.toNat_zero] at *
      have : (-1#11).toNat = 2047 := by decide
      omega
    · exact fun hx => Bool.noConfusion hx
  · split
    · rename_i hexp
      rw [hexp] at hexponent
      split
      · rename_i hman
        rw [hman] at hmantissa
        simp only [steps, BitVec.toNat_zero] at *
        omega
      · simp only [steps, hbias, hexp, BitVec.toNat_zero] at *
        omega
    · simp only [steps, toNat_one_append, hbias]
      omega

/-- **A pattern counts doubles.** -/
theorem rank_toBits (hx : x.isNaN = false) : rank x.toBits = placeOf (unpacked x) := by
  rw [placeOf, signOf_unpacked hx, steps_unpacked hx, rank]
  split_ifs with h
  · rfl
  · dsimp only
    rw [Nat.mod_eq_of_lt (not_le.1 h)]

/-! ### The order of numbers -/

section Unpacked

variable {f g : UnpackedFloat}

lemma steps_nonneg (hf : Normal f) : 0 ≤ steps f := by
  cases f with
  | finite s m e hm =>
    have he : -1074 ≤ e := hf.2.1
    simp only [steps]
    omega
  | _ => simp [steps]

/-- A number is its magnitude with its sign. -/
lemma valueOf_eq_abs (hf : f.isNaN = false) :
    valueOf f = match signOf f with
      | .positive => valueOf f.abs
      | .negative => -valueOf f.abs := by
  cases f with
  | notANumber => exact Bool.noConfusion hf
  | infinity s => cases s <;> simp [signOf, valueOf, UnpackedFloat.abs]
  | zero s => cases s <;> simp [signOf, valueOf, realOf, UnpackedFloat.abs]
  | finite s m e hm => cases s <;> simp [signOf, valueOf, realOf, UnpackedFloat.abs]

lemma valueOf_abs_nonneg (f : UnpackedFloat) : 0 ≤ valueOf f.abs := by
  cases f with
  | notANumber => exact le_top
  | infinity s => exact le_top
  | zero s => exact le_rfl
  | finite s m e hm => exact EReal.coe_nonneg.2 realOf_pos.le

/-- Of two magnitudes the larger one has more doubles below it. -/
lemma steps_lt (hf : Normal f) (hrange : InRange f) (hg : Normal g)
    (h : valueOf f.abs < valueOf g.abs) : steps f < steps g := by
  cases f with
  | notANumber => exact absurd h not_top_lt
  | infinity s => exact absurd h not_top_lt
  | zero s =>
    cases g with
    | zero t => exact absurd h (lt_irrefl _)
    | finite t n e hn =>
      have he : -1074 ≤ e := hg.2.1
      simp only [steps]
      omega
    | _ => simp [steps]
  | finite s m d hm =>
    obtain ⟨hm', hd, hfull⟩ := id hf
    have hd' : d ≤ 971 := hrange
    cases g with
    | zero t => exact absurd h (EReal.coe_lt_coe_iff.not.2 realOf_pos.not_gt)
    | finite t n e hn =>
      obtain ⟨hn', he, hfull'⟩ := id hg
      have hlt : (m : ℝ) * 2 ^ d < n * 2 ^ e := by
        simpa [realOf, UnpackedFloat.abs] using EReal.coe_lt_coe_iff.1 h
      simp only [steps]
      rcases lt_trichotomy d e with hde | rfl | hde
      · omega
      · have : m < n := by exact_mod_cast lt_of_mul_lt_mul_right hlt (two_zpow_pos d).le
        omega
      · exact absurd hlt (magnitude_lt hg hf hde).not_gt
    | _ =>
      simp only [steps]
      omega

lemma steps_congr (hf : Normal f) (hg : Normal g) (hfn : f.isNaN = false) (hgn : g.isNaN = false)
    (h : valueOf f.abs = valueOf g.abs) : steps f = steps g := by
  cases f <;> cases g
  case finite.finite s m d hm t n e hn =>
    have heq : (m : ℝ) * 2 ^ d = n * 2 ^ e := by
      simpa [realOf, UnpackedFloat.abs] using EReal.coe_eq_coe_iff.1 h
    simp only [steps]
    rcases lt_trichotomy d e with hde | rfl | hde
    · exact absurd heq (magnitude_lt hf hg hde).ne
    · have : m = n := by exact_mod_cast mul_right_cancel₀ (two_zpow_pos d).ne' heq
      rw [this]
    · exact absurd heq (magnitude_lt hg hf hde).ne'
  case zero.finite => exact absurd (EReal.coe_eq_coe_iff.1 h) realOf_pos.ne
  case finite.zero => exact absurd (EReal.coe_eq_coe_iff.1 h) realOf_pos.ne'
  case zero.zero | infinity.infinity => rfl
  case notANumber.notANumber | notANumber.infinity | notANumber.zero | notANumber.finite =>
    exact Bool.noConfusion hfn
  case infinity.notANumber | zero.notANumber | finite.notANumber => exact Bool.noConfusion hgn
  case infinity.zero | infinity.finite => exact absurd h.symm (EReal.coe_ne_top _)
  case zero.infinity | finite.infinity => exact absurd h (EReal.coe_ne_top _)

lemma placeOf_lt (hf : Normal f) (hf' : InRange f) (hg : Normal g) (hg' : InRange g)
    (hfn : f.isNaN = false) (hgn : g.isNaN = false) (h : valueOf f < valueOf g) :
    placeOf f < placeOf g := by
  have hf0 := steps_nonneg hf
  have hg0 := steps_nonneg hg
  rw [valueOf_eq_abs hfn, valueOf_eq_abs hgn] at h
  unfold placeOf
  cases hs : signOf f <;> cases ht : signOf g <;> rw [hs, ht] at h <;> dsimp only at h ⊢
  · have := steps_lt hg hg' hf (EReal.neg_lt_neg_iff.1 h)
    omega
  · omega
  · have hneg := EReal.neg_le_zero.2 (valueOf_abs_nonneg g)
    exact absurd h ((hneg.trans (valueOf_abs_nonneg f)).not_gt)
  · exact steps_lt hf hf' hg h

end Unpacked

/-- **The total order refines the order of numbers.** -/
theorem rank_lt_of_lt (h : x < y) : rank x.toBits < rank y.toBits := by
  obtain ⟨hx, hy, hlt⟩ := lt_iff.1 h
  rw [rank_toBits hx, rank_toBits hy]
  obtain ⟨hnx, hrx⟩ := unpack_normal x.toModel
  obtain ⟨hny, hry⟩ := unpack_normal y.toModel
  exact placeOf_lt hnx hrx hny hry hx hy hlt

/-- No double lies between neighbours. -/
lemma le_of_lt_neighbour {z : Float} (h : rank y.toBits = rank x.toBits + 1) (hx : x.isNaN = false)
    (hz : z < y) : z ≤ x := by
  by_contra hle
  have hlow := rank_lt_of_lt ((not_le_iff (lt_iff.1 hz).1 hx).1 hle)
  have hhigh := rank_lt_of_lt hz
  omega

lemma rank_ofFloat_lt (m n : UInt64) (h : x < y) :
    rank (DoubleBits.ofFloat m x) < rank (DoubleBits.ofFloat n y) := by
  obtain ⟨hx, hy, -⟩ := lt_iff.1 h
  simp only [DoubleBits.ofFloat, hx, hy, Bool.false_eq_true, if_false]
  exact rank_lt_of_lt h

/-- **A number is its value and its sign.** Only zeros need the sign. -/
theorem eq_of_value_eq (hx : x.isNaN = false) (hy : y.isNaN = false) (h : value x = value y)
    (hsign : signOf (unpacked x) = signOf (unpacked y)) : x = y := by
  refine toBits_injective (rank_injective ?_)
  have habs : valueOf (unpacked x).abs = valueOf (unpacked y).abs := by
    unfold value at h
    rw [valueOf_eq_abs (f := unpacked x) hx, valueOf_eq_abs (f := unpacked y) hy, hsign] at h
    cases hs : signOf (unpacked y) <;> rw [hs] at h
    exacts [neg_inj.1 h, h]
  rw [rank_toBits hx, rank_toBits hy, placeOf, placeOf, hsign,
    steps_congr (normal_unpacked x) (normal_unpacked y) hx hy habs]

lemma signOf_of_pos (h : 0 < value x) : signOf (unpacked x) = .positive := by
  unfold value at h
  cases hx : unpacked x with
  | notANumber => rfl
  | infinity s =>
    rw [hx] at h
    cases s
    exacts [absurd h not_lt_bot, rfl]
  | zero s =>
    rw [hx] at h
    exact absurd h (lt_irrefl _)
  | finite s m e hm =>
    rw [hx] at h
    cases s
    exacts [absurd (EReal.coe_lt_coe_iff.1 h) realOf_neg.not_gt, rfl]

/-! ### The negative zero -/

lemma eq_zero_or_neg_zero (hx : x.isNaN = false) (h : value x = 0) : x = 0.0 ∨ x = -0.0 := by
  cases hs : signOf (unpacked x) with
  | positive => exact .inl (eq_of_value_eq hx rfl (h.trans value_zero.symm) hs)
  | negative => exact .inr (eq_of_value_eq hx rfl h hs)

/-- From zero on the negative zero is the only number with a sign. -/
lemma eq_of_nonneg (hx : 0.0 ≤ x) (hy : 0.0 ≤ y) (hx0 : x ≠ -0.0) (hy0 : y ≠ -0.0)
    (h : value x = value y) : x = y := by
  have hsign {z : Float} (hz : 0.0 ≤ z) (hz0 : z ≠ -0.0) : signOf (unpacked z) = .positive := by
    obtain ⟨hnumber, hnonneg⟩ := zero_le_iff.1 hz
    rcases hnonneg.eq_or_lt with heq | hlt
    · rw [(eq_zero_or_neg_zero hnumber heq.symm).resolve_right hz0]
      rfl
    · exact signOf_of_pos hlt
  exact eq_of_value_eq (not_isNaN_of_zero_le hx) (not_isNaN_of_zero_le hy) h
    ((hsign hx hx0).trans (hsign hy hy0).symm)

/-- Only negative zeros add up to one. -/
lemma add_eq_neg_zero_iff (hx : 0.0 ≤ x) (hy : 0.0 ≤ y) :
    x + y = -0.0 ↔ x = -0.0 ∧ y = -0.0 := by
  constructor
  · intro h
    have hzero {z : Float} (hz : 0.0 ≤ z) (hle : z ≤ x + y) : z = 0.0 ∨ z = -0.0 := by
      obtain ⟨hnumber, hnonneg⟩ := zero_le_iff.1 hz
      have hvalue : value (x + y) = 0 := by rw [h]; rfl
      exact eq_zero_or_neg_zero hnumber (le_antisymm (hvalue ▸ (le_iff.1 hle).2.2) hnonneg)
    obtain ⟨hlex, hley⟩ := le_add hx hy
    rcases hzero hx hlex with rfl | rfl <;> rcases hzero hy hley with rfl | rfl <;>
      revert h <;> decide
  · rintro ⟨rfl, rfl⟩
    decide

end CodeComplexity.Double
