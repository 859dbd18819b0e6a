import CodeComplexity.Proofs.Double.Value

/-!
The arithmetic of doubles.

Each operation on finite doubles is the operation on reals, rounded once. The proofs go
operation by operation through the exact integer computation that precedes the rounding step.
-/

namespace CodeComplexity.Double

open Float.Model Float.Model.UnpackedFloat

/-- An unpacked number is finite, in normal form, and the nearest one to a real. -/
structure Rounds (f : UnpackedFloat) (x : ℝ) : Prop where
  normal : Normal f
  finite : f.isFinite
  real : realOf f = nearest x

lemma realOf_magnitude (s : Sign) {x : ℝ} (hx : 0 ≤ x) :
    realOf (magnitude s x) = factor s * nearest x := by
  rw [← digits_mul hx]
  unfold magnitude
  split_ifs with h0 h1
  · simp [realOf, h0]
  · rfl
  · have hdigits : digits x = 2 ^ 53 := by
      have := digits_le hx
      omega
    rw [realOf, hdigits, two_zpow_add, zpow_one]
    push_cast
    ring

lemma rounds_magnitude (s : Sign) {x : ℝ} (hx : 0 ≤ x) : Rounds (magnitude s x) (factor s * x) where
  normal := magnitude_normal hx s
  finite := by
    unfold magnitude
    split_ifs <;> rfl
  real := by
    rw [realOf_magnitude s hx]
    cases s <;> simp [nearest_neg]

/-- A number in normal form is on the grid. -/
lemma onGrid_realOf {f : UnpackedFloat} (h : Normal f) : OnGrid (realOf f) := by
  cases f with
  | notANumber => exact onGrid_zero
  | infinity s => exact onGrid_zero
  | zero s => exact onGrid_zero
  | finite s m e hm =>
    refine ⟨s.apply m, e, h.2.1, ?_, ?_⟩
    · have := h.1
      cases s <;> simp only [Sign.apply, abs_neg, Nat.abs_cast] <;> exact_mod_cast this
    · rw [realOf, apply_eq, Int.cast_natCast, mul_assoc]

lemma Rounds.self {f : UnpackedFloat} (hn : Normal f) (hf : f.isFinite) : Rounds f (realOf f) :=
  ⟨hn, hf, (nearest_of_onGrid (onGrid_realOf hn)).symm⟩

/-! ### Exact integers -/

lemma decreaseExponent_eq (m : ℕ) {d e : ℤ} (h : d ≤ e) :
    ∃ k : ℕ, e = d + k ∧ decreaseExponent m e d = (m * 2 ^ k, d) := by
  refine ⟨(e - d).toNat, by omega, ?_⟩
  simp only [decreaseExponent, Nat.shiftLeft_eq, Prod.mk.injEq, true_and]
  omega

lemma log2_mul_two_pow {m : ℕ} (hm : 0 < m) (k : ℕ) : (m * 2 ^ k).log2 = m.log2 + k := by
  have hlow := Nat.log2_self_le hm.ne'
  have hhigh := Nat.lt_log2_self (n := m)
  rw [Nat.log2_eq_iff (by positivity), pow_add, show m.log2 + k + 1 = m.log2 + 1 + k by ring,
    pow_add]
  exact ⟨Nat.mul_le_mul_right _ hlow, Nat.mul_lt_mul_of_pos_right hhigh (by positivity)⟩

/-- An exact mantissa is rounded, whatever its exponent. -/
lemma round_eq_magnitude (s : Sign) {m : ℕ} (hm : 0 < m) (e : ℤ) :
    UnpackedFloat.round Format.binary64 s m e = magnitude s (m * 2 ^ e) := by
  unfold UnpackedFloat.round
  simp only []
  set t := Format.binary64.targetExponent (totalExponent m e) with ht
  rcases le_total t e with h | h
  · obtain ⟨k, hk, hdec⟩ := decreaseExponent_eq m h
    have htarget : Format.binary64.targetExponent (totalExponent (m * 2 ^ k) t) = t := by
      rw [targetExponent_eq, log2_mul_two_pow hm]
      rw [targetExponent_eq] at ht
      push_cast
      omega
    rw [hdec]
    simp only []
    rw [roundWithAccuracy_eq s (x := (m * 2 ^ k : ℕ)) (by simp [Tail]) htarget.ge, hk, two_zpow_add]
    congr 1
    push_cast
    ring_nf
    rw [zpow_natCast]
  · have hdec : decreaseExponent m e t = (m, e) := by
      unfold decreaseExponent
      rw [show (e - t).toNat = 0 by omega]
      simp
    rw [hdec]
    exact roundWithAccuracy_eq s (x := m) (by simp [Tail]) h

lemma rounds_normalize (n : ℤ) (e : ℤ) (z : Sign) :
    Rounds (UnpackedFloat.normalize Format.binary64 n e z) (n * 2 ^ e) := by
  unfold UnpackedFloat.normalize
  rcases lt_trichotomy n 0 with h | rfl | h
  · rw [compare_lt_iff_lt.2 h]
    obtain ⟨k, rfl⟩ : ∃ k : ℕ, n = -k := ⟨n.natAbs, by omega⟩
    simp only [neg_neg, Int.toNat_natCast]
    rw [round_eq_magnitude .negative (by omega)]
    have := rounds_magnitude .negative (x := (k : ℝ) * 2 ^ e)
      (mul_nonneg k.cast_nonneg (two_zpow_pos e).le)
    simpa using this
  · rw [compare_eq_iff_eq.2 rfl]
    exact ⟨trivial, rfl, by simp [realOf]⟩
  · rw [compare_gt_iff_gt.2 h]
    obtain ⟨k, rfl⟩ : ∃ k : ℕ, n = k := ⟨n.toNat, by omega⟩
    simp only [Int.toNat_natCast]
    rw [round_eq_magnitude .positive (by omega)]
    have := rounds_magnitude .positive (x := (k : ℝ) * 2 ^ e)
      (mul_nonneg k.cast_nonneg (two_zpow_pos e).le)
    simpa using this

/-! ### The operations on unpacked numbers -/

variable {f g : UnpackedFloat}

lemma apply_decreaseExponent (s : Sign) (m : ℕ) {d e : ℤ} (h : d ≤ e) :
    ((s.apply (decreaseExponent m e d).1 : ℤ) : ℝ) * 2 ^ d = factor s * (m * 2 ^ e) := by
  obtain ⟨k, rfl, hdec⟩ := decreaseExponent_eq m h
  rw [hdec, apply_eq, two_zpow_add, zpow_natCast]
  push_cast
  ring

/-- A finite number is a zero or has digits. -/
lemma zero_or_finite (h : f.isFinite) :
    (∃ s, f = .zero s) ∨ ∃ s m e hm, f = .finite s m e hm := by
  cases f with
  | notANumber => simp [UnpackedFloat.isFinite] at h
  | infinity s => simp [UnpackedFloat.isFinite] at h
  | zero s => exact .inl ⟨s, rfl⟩
  | finite s m e hm => exact .inr ⟨s, m, e, hm, rfl⟩

@[simp] lemma realOf_zero (s : Sign) : realOf (.zero s) = 0 := rfl

lemma rounds_zero {s : Sign} : Rounds (.zero s) 0 := ⟨trivial, rfl, by simp⟩

lemma rounds_add (hf : Normal f) (hg : Normal g) (hf' : f.isFinite) (hg' : g.isFinite) :
    Rounds (UnpackedFloat.add Format.binary64 f g) (realOf f + realOf g) := by
  rcases zero_or_finite hf' with ⟨s, rfl⟩ | ⟨s, m, d, hm, rfl⟩
  · rw [realOf_zero, zero_add]
    rcases zero_or_finite hg' with ⟨t, rfl⟩ | ⟨t, n, e, hn, rfl⟩
    · rw [UnpackedFloat.add]
      split <;> exact rounds_zero
    · exact .self hg rfl
  · rcases zero_or_finite hg' with ⟨t, rfl⟩ | ⟨t, n, e, hn, rfl⟩
    · rw [realOf_zero, add_zero]
      exact .self hf rfl
    · have h := rounds_normalize
        (s.apply (decreaseExponent m d (min d e)).1 + t.apply (decreaseExponent n e (min d e)).1)
        (min d e) .positive
      rwa [Int.cast_add, add_mul, apply_decreaseExponent s m (min_le_left d e),
        apply_decreaseExponent t n (min_le_right d e)] at h

lemma factor_neg (s : Sign) : factor (-s) = -factor s := by
  cases s
  · exact (neg_neg 1).symm
  · rfl

lemma rounds_sub (hf : Normal f) (hg : Normal g) (hf' : f.isFinite) (hg' : g.isFinite) :
    Rounds (UnpackedFloat.sub Format.binary64 f g) (realOf f - realOf g) := by
  rcases zero_or_finite hf' with ⟨s, rfl⟩ | ⟨s, m, d, hm, rfl⟩
  · rw [realOf_zero, zero_sub]
    rcases zero_or_finite hg' with ⟨t, rfl⟩ | ⟨t, n, e, hn, rfl⟩
    · rw [UnpackedFloat.sub, realOf_zero, neg_zero]
      split <;> exact rounds_zero
    · have h : Rounds (.finite (-t) n e hn) (realOf (.finite (-t) n e hn)) := .self hg rfl
      rwa [realOf, factor_neg, neg_mul] at h
  · rcases zero_or_finite hg' with ⟨t, rfl⟩ | ⟨t, n, e, hn, rfl⟩
    · rw [realOf_zero, sub_zero]
      exact .self hf rfl
    · have h := rounds_normalize
        (s.apply (decreaseExponent m d (min d e)).1 - t.apply (decreaseExponent n e (min d e)).1)
        (min d e) .positive
      rwa [Int.cast_sub, sub_mul, apply_decreaseExponent s m (min_le_left d e),
        apply_decreaseExponent t n (min_le_right d e)] at h

/-- A product of mantissas has digits enough, unless the exponent is below every double's. -/
lemma mul_targetExponent {s t : Sign} {m n : ℕ} {d e : ℤ} {hm : 0 < m} {hn : 0 < n}
    (hf : Normal (.finite s m d hm)) (hg : Normal (.finite t n e hn)) :
    d + e ≤ Format.binary64.targetExponent (totalExponent (m * n) (d + e)) := by
  rw [targetExponent_eq]
  by_cases hfull : 2 ^ 52 ≤ m * n
  · have := (Nat.le_log2 (Nat.mul_pos hm hn).ne').2 hfull
    omega
  · have hm' : ¬2 ^ 52 ≤ m := fun h => hfull (h.trans (Nat.le_mul_of_pos_right m hn))
    have hn' : ¬2 ^ 52 ≤ n := fun h => hfull (h.trans (Nat.le_mul_of_pos_left n hm))
    have := hf.2.2.resolve_left hm'
    have := hg.2.2.resolve_left hn'
    omega

lemma rounds_mul (hf : Normal f) (hg : Normal g) (hf' : f.isFinite) (hg' : g.isFinite) :
    Rounds (UnpackedFloat.mul Format.binary64 f g) (realOf f * realOf g) := by
  rcases zero_or_finite hf' with ⟨s, rfl⟩ | ⟨s, m, d, hm, rfl⟩
  · rw [realOf_zero, zero_mul]
    rcases zero_or_finite hg' with ⟨t, rfl⟩ | ⟨t, n, e, hn, rfl⟩ <;> exact rounds_zero
  · rcases zero_or_finite hg' with ⟨t, rfl⟩ | ⟨t, n, e, hn, rfl⟩
    · rw [realOf_zero, mul_zero]
      exact rounds_zero
    · have hx : (0 : ℝ) ≤ (m * n : ℕ) * 2 ^ (d + e) :=
        mul_nonneg (Nat.cast_nonneg _) (two_zpow_pos _).le
      have h := rounds_magnitude (s * t) hx
      rw [← roundWithAccuracy_eq (s * t) (a := .exact) (by simp [Tail])
        (mul_targetExponent hf hg)] at h
      have hprod : realOf (.finite s m d hm) * realOf (.finite t n e hn) =
          factor (s * t) * ((m * n : ℕ) * 2 ^ (d + e)) := by
        rw [realOf, realOf, factor_mul, two_zpow_add]
        push_cast
        ring
      rw [hprod]
      exact h

/-! ### Quotients and roots -/

lemma tail_accuracyOfFraction {m n : ℕ} (hn : 0 < n) :
    Tail (accuracyOfFraction (m % n) n) ((m : ℝ) / n - (m / n : ℕ)) := by
  have hn' : (0 : ℝ) < n := Nat.cast_pos.2 hn
  have hdiv : (m : ℝ) / n - (m / n : ℕ) = (m % n : ℕ) / n := by
    have : (m : ℝ) = n * (m / n : ℕ) + (m % n : ℕ) := by exact_mod_cast (Nat.div_add_mod m n).symm
    field_simp
    linarith
  have hlt : ((m % n : ℕ) : ℝ) < n := Nat.cast_lt.2 (Nat.mod_lt m hn)
  rw [hdiv, accuracyOfFraction]
  split_ifs with h0
  · simp [Tail, h0]
  · have hpos : (0 : ℝ) < (m % n : ℕ) := Nat.cast_pos.2 (Nat.pos_of_ne_zero h0)
    rcases lt_trichotomy (2 * (m % n)) n with h | h | h
    · rw [compare_lt_iff_lt.2 h]
      have : (2 : ℝ) * (m % n : ℕ) < n := by exact_mod_cast h
      exact ⟨div_pos hpos hn', by rw [div_lt_div_iff₀ hn' two_pos]; linarith⟩
    · rw [compare_eq_iff_eq.2 h]
      have : (2 : ℝ) * (m % n : ℕ) = n := by exact_mod_cast h
      simp only [Tail]
      rw [div_eq_div_iff hn'.ne' two_ne_zero]
      linarith
    · rw [compare_gt_iff_gt.2 h]
      have : (n : ℝ) < 2 * (m % n : ℕ) := by exact_mod_cast h
      exact ⟨by rw [div_lt_div_iff₀ two_pos hn']; linarith, (div_lt_one hn').2 hlt⟩

/-- The exponent at which a quotient is computed leaves it digits enough. -/
lemma le_div_of_exponent {m n k : ℕ} (hm : 0 < m) (hn : 0 < n) (h : n.log2 + 53 ≤ m.log2 + k) :
    2 ^ 52 ≤ m * 2 ^ k / n := by
  rw [Nat.le_div_iff_mul_le hn]
  calc 2 ^ 52 * n ≤ 2 ^ 52 * 2 ^ (n.log2 + 1) := Nat.mul_le_mul_left _ Nat.lt_log2_self.le
    _ = 2 ^ (n.log2 + 53) := by rw [← pow_add]; congr 1; ring
    _ ≤ 2 ^ (m.log2 + k) := Nat.pow_le_pow_right two_pos h
    _ = 2 ^ m.log2 * 2 ^ k := pow_add _ _ _
    _ ≤ m * 2 ^ k := Nat.mul_le_mul_right _ (Nat.log2_self_le hm.ne')

/-- Digits enough, or an exponent below every double's, is what the rounding step asks for. -/
lemma le_targetExponent {q : ℕ} {t : ℤ} (h : t ≤ -1074 ∨ 2 ^ 52 ≤ q) :
    t ≤ Format.binary64.targetExponent (totalExponent q t) := by
  rw [targetExponent_eq]
  rcases h with h | h
  · exact h.trans (le_max_right _ _)
  · have := (Nat.le_log2 (by omega)).2 h
    omega

lemma divCore_spec {m n : ℕ} (hm : 0 < m) (hn : 0 < n) (d e : ℤ) :
    ∃ (q : ℕ) (t : ℤ) (a : Accuracy) (x : ℝ),
      divCore Format.binary64 m d n e = (q, t, a) ∧ Tail a (x - q) ∧
      t ≤ Format.binary64.targetExponent (totalExponent q t) ∧
      x * 2 ^ t = (m * 2 ^ d) / (n * 2 ^ e) := by
  set t := min (d - e) (Format.binary64.targetExponent (totalExponent m d - totalExponent n e))
    with ht
  obtain ⟨k, hk⟩ : ∃ k : ℕ, d - e = t + k := ⟨(d - e - t).toNat, by omega⟩
  refine ⟨m * 2 ^ k / n, t, accuracyOfFraction (m * 2 ^ k % n) n, (m * 2 ^ k : ℕ) / n, ?_,
    tail_accuracyOfFraction hn, le_targetExponent ?_, ?_⟩
  · unfold divCore
    simp only [← ht, show (d - e - t).toNat = k by omega, Nat.shiftLeft_eq]
  · by_cases hmin : t ≤ -1074
    · exact .inl hmin
    · refine .inr (le_div_of_exponent hm hn ?_)
      have hmin' : Format.binary64.minExponent = -1074 := by decide
      have hbits : (Format.binary64.mantissaBits : ℤ) = 53 := by decide
      rw [Format.targetExponent, hmin', hbits, totalExponent, totalExponent] at ht
      omega
  · have := two_zpow_pos e
    have : (0 : ℝ) < n := Nat.cast_pos.2 hn
    rw [show d = t + k + e by omega, two_zpow_add, two_zpow_add, zpow_natCast]
    push_cast
    field_simp

lemma rounds_div (hf : Normal f) (hg : Normal g) (hf' : f.isFinite) (hg' : g.isFinite)
    (h0 : realOf g ≠ 0) : Rounds (UnpackedFloat.div Format.binary64 f g) (realOf f / realOf g) := by
  rcases zero_or_finite hg' with ⟨t, rfl⟩ | ⟨t, n, e, hn, rfl⟩
  · exact absurd rfl h0
  rcases zero_or_finite hf' with ⟨s, rfl⟩ | ⟨s, m, d, hm, rfl⟩
  · rw [realOf_zero, zero_div]
    exact rounds_zero
  obtain ⟨q, u, a, x, hcore, htail, hu, hx⟩ := divCore_spec hm hn d e
  have hnonneg : 0 ≤ x * 2 ^ u := by
    have := two_zpow_pos d
    have := two_zpow_pos e
    rw [hx]
    positivity
  have h := rounds_magnitude (s / t) hnonneg
  rw [← roundWithAccuracy_eq (s / t) htail hu, hx] at h
  have hdiv : UnpackedFloat.div Format.binary64 (.finite s m d hm) (.finite t n e hn) =
      roundWithAccuracy Format.binary64 (s / t) q u a := by
    rw [UnpackedFloat.div, hcore]
  have hquot : realOf (.finite s m d hm) / realOf (.finite t n e hn) =
      factor (s / t) * (m * 2 ^ d / (n * 2 ^ e)) := by
    have hfactor : factor (s / t) = factor s / factor t := by
      cases s <;> cases t
      · exact (div_self (by norm_num)).symm
      · exact (div_one _).symm
      · norm_num [factor]
        rfl
      · exact (div_one _).symm
    rw [realOf, realOf, hfactor, mul_div_mul_comm]
  rw [hdiv, hquot]
  exact h

/-- The remainder tells on which side of the middle the root of an integer lies: no root lies in
the middle itself. -/
lemma tail_sqrt (m : ℕ) :
    Tail (if m - m.sqrt * m.sqrt = 0 then .exact
      else .inexact (if m - m.sqrt * m.sqrt ≤ m.sqrt then .lt else .gt)) (√m - m.sqrt) := by
  set r := m.sqrt
  have hle : r * r ≤ m := m.sqrt_le
  have hlt : m < (r + 1) * (r + 1) := m.lt_succ_sqrt
  have hr : (0 : ℝ) ≤ r := r.cast_nonneg
  have hm : (0 : ℝ) ≤ m := m.cast_nonneg
  split_ifs with h0 h1
  · have : (m : ℝ) = r * r := by exact_mod_cast (by omega : m = r * r)
    simp only [Tail]
    rw [this, Real.sqrt_mul_self hr, sub_self]
  · have hlow : (r : ℝ) * r < m := by exact_mod_cast (by omega : r * r < m)
    have hhigh : (m : ℝ) ≤ r * r + r := by exact_mod_cast (by omega : m ≤ r * r + r)
    constructor
    · have : (r : ℝ) < √m := Real.lt_sqrt_of_sq_lt (by nlinarith)
      linarith
    · have : √m < r + 1 / 2 := (Real.sqrt_lt' (by linarith)).2 (by nlinarith)
      linarith
  · have hlow : (r : ℝ) * r + r + 1 ≤ m := by exact_mod_cast (by omega : r * r + r + 1 ≤ m)
    have hhigh : (m : ℝ) < (r + 1) * (r + 1) := by exact_mod_cast hlt
    constructor
    · have : (r : ℝ) + 1 / 2 < √m := Real.lt_sqrt_of_sq_lt (by nlinarith)
      linarith
    · have : √m < r + 1 := (Real.sqrt_lt' (by linarith)).2 (by nlinarith)
      linarith

/-- The exponent at which a root is computed leaves it digits enough. -/
lemma le_sqrt_of_exponent {m k : ℕ} (hm : 0 < m) (h : 104 ≤ m.log2 + k) :
    2 ^ 52 ≤ (m * 2 ^ k).sqrt := by
  rw [Nat.le_sqrt, ← pow_add]
  calc 2 ^ (52 + 52) ≤ 2 ^ (m.log2 + k) := Nat.pow_le_pow_right two_pos h
    _ = 2 ^ m.log2 * 2 ^ k := pow_add _ _ _
    _ ≤ m * 2 ^ k := Nat.mul_le_mul_right _ (Nat.log2_self_le hm.ne')

lemma sqrtCore_spec {m : ℕ} (hm : 0 < m) (e : ℤ) :
    ∃ (q : ℕ) (t : ℤ) (a : Accuracy) (x : ℝ),
      sqrtCore Format.binary64 m e = (q, t, a) ∧ Tail a (x - q) ∧
      t ≤ Format.binary64.targetExponent (totalExponent q t) ∧ x * 2 ^ t = √(m * 2 ^ e) := by
  set t := min (e.ediv 2) (Format.binary64.targetExponent ((totalExponent m e + 1).ediv 2)) with ht
  have hhalf : t ≤ e / 2 := min_le_left _ _
  obtain ⟨k, hk⟩ : ∃ k : ℕ, e = 2 * t + k := ⟨(e - 2 * t).toNat, by omega⟩
  refine ⟨(m * 2 ^ k).sqrt, t, _, √(m * 2 ^ k : ℕ), ?_, tail_sqrt _, le_targetExponent ?_, ?_⟩
  · unfold sqrtCore
    simp only [← ht, show (e - 2 * t).toNat = k by omega, Nat.shiftLeft_eq]
  · by_cases hmin : t ≤ -1074
    · exact .inl hmin
    · refine .inr (le_sqrt_of_exponent hm ?_)
      have hmin' : Format.binary64.minExponent = -1074 := by decide
      have hbits : (Format.binary64.mantissaBits : ℤ) = 53 := by decide
      have hdiv (n : ℤ) : n.ediv 2 = n / 2 := rfl
      rw [Format.targetExponent, hmin', hbits, totalExponent, hdiv, hdiv] at ht
      omega
  · have hpos := two_zpow_pos t
    rw [hk, two_mul, two_zpow_add, two_zpow_add, zpow_natCast, ← Real.sqrt_mul_self hpos.le,
      ← Real.sqrt_mul (Nat.cast_nonneg _), Real.sqrt_mul_self hpos.le]
    congr 1
    push_cast
    ring

lemma rounds_sqrt (hf : Normal f) (hf' : f.isFinite) (h0 : 0 ≤ realOf f) :
    Rounds (UnpackedFloat.sqrt Format.binary64 f) √(realOf f) := by
  rcases zero_or_finite hf' with ⟨s, rfl⟩ | ⟨s, m, d, hm, rfl⟩
  · rw [realOf_zero, Real.sqrt_zero]
    exact rounds_zero
  cases s with
  | negative => exact absurd realOf_neg h0.not_gt
  | positive =>
    obtain ⟨q, u, a, x, hcore, htail, hu, hx⟩ := sqrtCore_spec hm d
    have h := rounds_magnitude .positive (hx ▸ Real.sqrt_nonneg _)
    rw [← roundWithAccuracy_eq .positive htail hu, hx] at h
    rw [UnpackedFloat.sqrt, hcore, realOf, factor_positive, one_mul]
    rwa [factor_positive, one_mul] at h

end CodeComplexity.Double
