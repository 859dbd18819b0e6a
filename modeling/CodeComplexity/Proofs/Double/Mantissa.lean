import CodeComplexity.Proofs.Double.Unpacked

/-!
The rounding step of the arithmetic.

Every operation ends in one function. It is given a mantissa and a word on how the exact result
lies behind it, shifts the mantissa to the exponent of the result while it collects the bits that
drop out, and rounds. The exact result being a real, this is the nearest double.
-/

namespace CodeComplexity.Double

open Float.Model Float.Model.UnpackedFloat

/-! ### Residual bits -/

/-- What an accuracy says of the part of a real that stands behind its mantissa. -/
def Tail : Accuracy → ℝ → Prop
  | .exact, t => t = 0
  | .inexact .lt, t => 0 < t ∧ t < 1 / 2
  | .inexact .eq, t => t = 1 / 2
  | .inexact .gt, t => 1 / 2 < t ∧ t < 1

lemma Tail.bounds {a : Accuracy} {t : ℝ} (h : Tail a t) : 0 ≤ t ∧ t < 1 := by
  rcases a with _ | _ | _ | _ <;> simp only [Tail] at h <;> constructor <;> linarith

/-- A mantissa with residual bits stands for a real. -/
def StandsFor (em : ExtendedMantissa) (x : ℝ) : Prop := Tail em.accuracy (x - em.mantissa)

lemma standsFor_ofMantissaAndAccuracy {m : ℕ} {a : Accuracy} {x : ℝ} (h : Tail a (x - m)) :
    StandsFor (ExtendedMantissa.ofMantissaAndAccuracy m a) x := by
  rcases a with _ | _ | _ | _ <;> exact h

lemma StandsFor.shiftRightOne {em : ExtendedMantissa} {x : ℝ} (h : StandsFor em x) :
    StandsFor em.shiftRightOne (x / 2) := by
  obtain ⟨m, r, s⟩ := em
  have hm : (m : ℝ) = 2 * ((m / 2 : ℕ) : ℝ) + ((m % 2 : ℕ) : ℝ) := by
    exact_mod_cast (Nat.div_add_mod m 2).symm
  unfold StandsFor ExtendedMantissa.shiftRightOne at *
  rcases Nat.mod_two_eq_zero_or_one m with h2 | h2 <;> rw [h2] at hm ⊢ <;>
    cases r <;> cases s <;> simp [ExtendedMantissa.accuracy, Tail] at h hm ⊢ <;>
    first | linarith | (constructor <;> linarith)

lemma StandsFor.shiftRight {em : ExtendedMantissa} {x : ℝ} (h : StandsFor em x) (k : ℕ) :
    StandsFor (em >>> k) (x / 2 ^ k) := by
  change StandsFor (k.repeat ExtendedMantissa.shiftRightOne em) _
  induction k with
  | zero => simpa [Nat.repeat] using h
  | succ k ih =>
    rw [Nat.repeat, pow_succ, ← div_div]
    exact ih.shiftRightOne

lemma StandsFor.floor {em : ExtendedMantissa} {x : ℝ} (h : StandsFor em x) :
    ⌊x⌋ = em.mantissa := by
  obtain ⟨h0, h1⟩ := Tail.bounds h
  rw [Int.floor_eq_iff]
  push_cast
  constructor <;> linarith

lemma StandsFor.roundedMantissa {em : ExtendedMantissa} {x : ℝ} (h : StandsFor em x) :
    (em.roundedMantissa : ℤ) = roundEven x := by
  unfold roundEven
  rw [Int.fract, h.floor]
  obtain ⟨m, r, s⟩ := em
  push_cast
  cases r <;> cases s <;> simp only [StandsFor, ExtendedMantissa.accuracy, Tail] at h <;>
    simp only [ExtendedMantissa.roundedMantissa, ExtendedMantissa.accuracy,
      Accuracy.roundToNearestEven] <;>
    split_ifs <;> first | linarith | (push_cast; rfl)

/-! ### The exponent of the result -/

lemma targetExponent_eq (m : ℕ) (e : ℤ) :
    Format.binary64.targetExponent (totalExponent m e) = max (m.log2 + e - 52) (-1074) := by
  have hmin : Format.binary64.minExponent = -1074 := by decide
  have hbits : (Format.binary64.mantissaBits : ℤ) = 53 := by decide
  rw [Format.targetExponent, totalExponent, hmin, hbits]
  congr 1
  ring

/-- The exponent that is aimed at is that of the spacing around the exact result. -/
lemma targetExponent_eq_exponent {m : ℕ} {e : ℤ} {x : ℝ} (hx : 0 < x) (hm : m ≤ x)
    (hm' : x < m + 1) (he : e ≤ Format.binary64.targetExponent (totalExponent m e)) :
    Format.binary64.targetExponent (totalExponent m e) = exponent (x * 2 ^ e) := by
  rw [targetExponent_eq] at he ⊢
  have habs : |x * 2 ^ e| = x * 2 ^ e := abs_of_pos (mul_pos hx (two_zpow_pos e))
  have hupper : x * 2 ^ e < 2 ^ ((m.log2 : ℤ) + 1 + e) := by
    have : m + 1 ≤ 2 ^ (m.log2 + 1) := Nat.lt_log2_self
    rw [two_zpow_add]
    refine mul_lt_mul_of_pos_right (hm'.trans_le ?_) (two_zpow_pos e)
    exact_mod_cast this
  apply le_antisymm
  · rcases Nat.eq_zero_or_pos m with rfl | hpos
    · have := le_exponent (x * 2 ^ e)
      simp only [Nat.log2_zero, Nat.cast_zero] at he ⊢
      omega
    · refine max_le ?_ (le_exponent _)
      by_contra hlt
      have hle := abs_lt_exponent (x * 2 ^ e)
      have hlower : (2 : ℝ) ^ ((m.log2 : ℤ) + e) ≤ x * 2 ^ e := by
        have : 2 ^ m.log2 ≤ m := Nat.log2_self_le hpos.ne'
        rw [two_zpow_add]
        refine mul_le_mul_of_nonneg_right (le_trans ?_ hm) (two_zpow_pos e).le
        exact_mod_cast this
      rw [habs] at hle
      have := two_zpow_lt.1 (hlower.trans_lt hle)
      omega
  · rw [exponent_le (le_max_right _ _), habs]
    refine hupper.trans_le (two_zpow_le.2 ?_)
    omega

/-! ### The rounded number -/

/-- The digits of the nearest double of a magnitude. -/
noncomputable def digits (x : ℝ) : ℕ := (roundEven (x / 2 ^ exponent x)).toNat

/-- The nearest double of a magnitude, unpacked, with a sign. Rounding up may carry into a
fifty-fourth digit. -/
noncomputable def magnitude (s : Sign) (x : ℝ) : UnpackedFloat :=
  if h : digits x = 0 then .zero s
  else if digits x < 2 ^ 53 then .finite s (digits x) (exponent x) (Nat.pos_of_ne_zero h)
  else .finite s (2 ^ 52) (exponent x + 1) (by decide)

section Digits

variable {x : ℝ} (hx : 0 ≤ x)

include hx

lemma digits_eq : (digits x : ℤ) = roundEven (x / 2 ^ exponent x) :=
  Int.toNat_of_nonneg (le_roundEven (by
    rw [Int.cast_zero]
    exact div_nonneg hx (two_zpow_pos _).le))

lemma digits_mul : (digits x : ℝ) * 2 ^ exponent x = nearest x := by
  rw [nearest, ← digits_eq hx, Int.cast_natCast]

lemma digits_le : digits x ≤ 2 ^ 53 := by
  have hlt := abs_lt_exponent x
  rw [abs_of_nonneg hx, add_comm, two_zpow_add] at hlt
  have hround : roundEven (x / 2 ^ exponent x) ≤ 2 ^ 53 := by
    refine roundEven_le ((div_le_iff₀ (two_zpow_pos _)).2 (hlt.le.trans (le_of_eq ?_)))
    norm_num
  have := digits_eq hx
  omega

lemma le_digits (h : -1074 < exponent x) : 2 ^ 52 ≤ digits x := by
  have hle := le_abs_of_lt_exponent h
  rw [abs_of_nonneg hx, add_comm, two_zpow_add] at hle
  have hround : 2 ^ 52 ≤ roundEven (x / 2 ^ exponent x) := by
    refine le_roundEven ((le_div_iff₀ (two_zpow_pos _)).2 (le_trans (le_of_eq ?_) hle))
    norm_num
  have := digits_eq hx
  omega

lemma magnitude_normal (s : Sign) : Normal (magnitude s x) := by
  have hexp := le_exponent x
  have hfull : 2 ^ 52 ≤ digits x ∨ exponent x = -1074 := by
    rcases hexp.lt_or_eq with h | h
    · exact .inl (le_digits hx h)
    · exact .inr h.symm
  unfold magnitude
  split_ifs with h0 h1
  · trivial
  · exact ⟨h1, hexp, hfull⟩
  · exact ⟨by norm_num, by omega, .inl le_rfl⟩

end Digits

/-! ### The two shifts -/

lemma shift_digits {n : ℕ} {e : ℤ} (hn : n < 2 ^ 53) (he : -1074 ≤ e) :
    shiftToTargetExponent Format.binary64 n e .exact = (⟨n, false, false⟩, e) := by
  have hlog : n.log2 ≤ 52 := by
    rcases Nat.eq_zero_or_pos n with rfl | hpos
    · simp
    · have := (Nat.log2_lt hpos.ne').2 hn
      omega
  have hshift : (Format.binary64.targetExponent (totalExponent n e) - e).toNat = 0 := by
    rw [targetExponent_eq]
    omega
  unfold shiftToTargetExponent shiftToExponent
  simp only [hshift]
  simp [ExtendedMantissa.ofMantissaAndAccuracy, HShiftRight.hShiftRight, Nat.repeat]

lemma shift_carry {e : ℤ} (he : -1074 ≤ e) :
    shiftToTargetExponent Format.binary64 (2 ^ 53) e .exact = (⟨2 ^ 52, false, false⟩, e + 1) := by
  have hshift : (Format.binary64.targetExponent (totalExponent (2 ^ 53) e) - e).toNat = 1 := by
    rw [targetExponent_eq, Nat.log2_two_pow]
    omega
  unfold shiftToTargetExponent shiftToExponent
  simp only [hshift]
  simp [ExtendedMantissa.ofMantissaAndAccuracy, HShiftRight.hShiftRight, Nat.repeat,
    ExtendedMantissa.shiftRightOne]

lemma roundWithAccuracy_of_shift {s : Sign} {m : ℕ} {e : ℤ} {a : Accuracy} {n : ℕ} {t : ℤ}
    (ht : -1074 ≤ t) (hn : n ≤ 2 ^ 53)
    (h₁ : (shiftToTargetExponent Format.binary64 m e a).1.roundedMantissa = n)
    (h₂ : (shiftToTargetExponent Format.binary64 m e a).2 = t) :
    roundWithAccuracy Format.binary64 s m e a =
      if h : n = 0 then .zero s
      else if n < 2 ^ 53 then .finite s n t (Nat.pos_of_ne_zero h)
      else .finite s (2 ^ 52) (t + 1) (by decide) := by
  unfold roundWithAccuracy
  simp only [h₁, h₂]
  by_cases hlt : n < 2 ^ 53
  · simp only [shift_digits hlt ht, hlt, if_true]
  · obtain rfl : n = 2 ^ 53 := by omega
    simp only [shift_carry ht]
    simp

/-- **The rounding step is rounding to nearest.** The operand is the mantissa, the exponent and the
tail that the accuracy speaks of. -/
theorem roundWithAccuracy_eq (s : Sign) {m : ℕ} {e : ℤ} {a : Accuracy} {x : ℝ}
    (hx : Tail a (x - m)) (he : e ≤ Format.binary64.targetExponent (totalExponent m e)) :
    roundWithAccuracy Format.binary64 s m e a = magnitude s (x * 2 ^ e) := by
  set t := Format.binary64.targetExponent (totalExponent m e) with ht
  have htmin : -1074 ≤ t := by
    rw [ht, targetExponent_eq]
    exact le_max_right _ _
  obtain ⟨k, hk⟩ : ∃ k : ℕ, t = e + k := ⟨(t - e).toNat, by omega⟩
  have hshift : shiftToTargetExponent Format.binary64 m e a =
      (ExtendedMantissa.ofMantissaAndAccuracy m a >>> k, t) := by
    unfold shiftToTargetExponent shiftToExponent
    simp only [← ht, show (t - e).toNat = k by omega, ← hk]
  have hscale : x / 2 ^ k = x * 2 ^ e / 2 ^ t := by
    rw [hk, two_zpow_add, zpow_natCast]
    have := two_zpow_pos e
    field_simp
  have hround := ((standsFor_ofMantissaAndAccuracy hx).shiftRight k).roundedMantissa
  rw [hscale] at hround
  obtain ⟨h0, h1⟩ := hx.bounds
  have hx0 : 0 ≤ x := by
    have : (0 : ℝ) ≤ m := m.cast_nonneg
    linarith
  have hX : 0 ≤ x * 2 ^ e := mul_nonneg hx0 (two_zpow_pos e).le
  have hn : (ExtendedMantissa.ofMantissaAndAccuracy m a >>> k).roundedMantissa =
      digits (x * 2 ^ e) := by
    rcases hx0.lt_or_eq with hpos | hzero
    · rw [← Nat.cast_inj (R := ℤ), hround, digits_eq hX,
        ← targetExponent_eq_exponent hpos (by linarith) (by linarith) he, ← ht]
    · rw [← Nat.cast_inj (R := ℤ), hround, digits_eq hX, ← hzero]
      simp
  rw [roundWithAccuracy_of_shift htmin (digits_le hX) (by rw [hshift, hn]) (by rw [hshift])]
  rcases hx0.lt_or_eq with hpos | hzero
  · rw [magnitude, ← targetExponent_eq_exponent hpos (by linarith) (by linarith) he, ← ht]
  · simp [magnitude, ← hzero, digits]

end CodeComplexity.Double
