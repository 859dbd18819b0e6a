import CodeComplexity.Proofs.Double.Mantissa

/-!
What doubles stand for.

A finite double is a real, the infinities are the ends of the line. The value that is no number
stands above everything here, which is where every classification by upper limits puts it;
statements that must tell it from infinity say so. Comparisons of doubles are comparisons of
values, and storing a number keeps its value unless it overflows.
-/

namespace CodeComplexity.Double

open Float.Model Float.Model.UnpackedFloat

/-! ### Unpacked numbers -/

/-- A sign as a factor. -/
noncomputable def factor : Sign → ℝ
  | .negative => -1
  | .positive => 1

@[simp] lemma factor_negative : factor .negative = -1 := rfl
@[simp] lemma factor_positive : factor .positive = 1 := rfl

lemma apply_eq (s : Sign) (n : ℤ) : ((s.apply n : ℤ) : ℝ) = factor s * n := by
  cases s <;> simp [Sign.apply]

lemma factor_mul (s t : Sign) : factor (s * t) = factor s * factor t := by
  cases s <;> cases t <;> simp [show Sign.negative * .negative = .positive from rfl,
    show Sign.negative * .positive = .negative from rfl,
    show Sign.positive * .negative = .negative from rfl,
    show Sign.positive * .positive = .positive from rfl]

/-- The real of a finite number; the others have none and are given zero. -/
noncomputable def realOf : UnpackedFloat → ℝ
  | .finite s m e _ => factor s * (m * 2 ^ e)
  | _ => 0

/-- The place of a number on the extended line. -/
noncomputable def valueOf : UnpackedFloat → EReal
  | .notANumber => ⊤
  | .infinity .positive => ⊤
  | .infinity .negative => ⊥
  | f => realOf f

lemma valueOf_of_isFinite {f : UnpackedFloat} (h : f.isFinite) : valueOf f = realOf f := by
  cases f with
  | notANumber => simp [UnpackedFloat.isFinite] at h
  | infinity s => simp [UnpackedFloat.isFinite] at h
  | zero s => rfl
  | finite s m e hm => rfl

/-- Where the range of doubles ends. -/
noncomputable def limit : ℝ := 2 ^ (1024 : ℤ)

lemma limit_pos : 0 < limit := two_zpow_pos _

/-- A real rounded to the grid becomes an infinity if it is too large for a double. -/
noncomputable def overflow (x : ℝ) : EReal :=
  if limit ≤ x then ⊤ else if x ≤ -limit then ⊥ else x

lemma overflow_of_abs_lt {x : ℝ} (h : |x| < limit) : overflow x = x := by
  obtain ⟨h1, h2⟩ := abs_lt.1 h
  rw [overflow, if_neg (not_le.2 h2), if_neg (not_le.2 h1)]

lemma overflow_of_le {x : ℝ} (h : limit ≤ x) : overflow x = ⊤ := if_pos h

lemma overflow_of_le_neg {x : ℝ} (h : x ≤ -limit) : overflow x = ⊥ := by
  have := limit_pos
  rw [overflow, if_neg (by linarith), if_pos h]

lemma overflow_mono {x y : ℝ} (h : x ≤ y) : overflow x ≤ overflow y := by
  rcases le_or_gt limit y with hy | hy
  · rw [overflow_of_le hy]
    exact le_top
  rcases le_or_gt x (-limit) with hx | hx
  · rw [overflow_of_le_neg hx]
    exact bot_le
  rw [overflow_of_abs_lt (abs_lt.2 ⟨hx, h.trans_lt hy⟩),
    overflow_of_abs_lt (abs_lt.2 ⟨hx.trans_le h, hy⟩)]
  exact EReal.coe_le_coe_iff.2 h

/-- A mantissa in normal form reaches the end of the range exactly if its exponent is too large. -/
lemma limit_le_iff {s : Sign} {m : ℕ} {e : ℤ} {hm : 0 < m} (hn : Normal (.finite s m e hm)) :
    limit ≤ m * 2 ^ e ↔ 971 < e := by
  constructor
  · intro h
    by_contra he
    have hlt : (m : ℝ) < 2 ^ (53 : ℤ) := by exact_mod_cast hn.1
    have hle : (2 : ℝ) ^ e ≤ 2 ^ (971 : ℤ) := two_zpow_le.2 (not_lt.1 he)
    refine h.not_gt ?_
    rw [limit, show (1024 : ℤ) = 53 + 971 by norm_num, two_zpow_add]
    exact mul_lt_mul hlt hle (two_zpow_pos e) (two_zpow_pos 53).le
  · intro he
    have hfull : 2 ^ 52 ≤ m := hn.2.2.resolve_right (by omega)
    have hle : (2 : ℝ) ^ (52 : ℤ) ≤ m := by exact_mod_cast hfull
    rw [limit, show (1024 : ℤ) = 52 + 972 by norm_num, two_zpow_add]
    exact mul_le_mul hle (two_zpow_le.2 he) (two_zpow_pos 972).le m.cast_nonneg

/-- Storing keeps the value of a number in normal form, up to overflow. -/
theorem valueOf_store {f : UnpackedFloat} (hn : Normal f) (hf : f.isFinite) :
    valueOf (store f) = overflow (realOf f) := by
  have hlimit := limit_pos
  cases f with
  | notANumber => simp [UnpackedFloat.isFinite] at hf
  | infinity s => simp [UnpackedFloat.isFinite] at hf
  | zero s =>
    rw [store_zero, overflow_of_abs_lt (by simpa [realOf])]
    rfl
  | finite s m e hm =>
    have hnonneg : (0 : ℝ) ≤ m * 2 ^ e := mul_nonneg m.cast_nonneg (two_zpow_pos e).le
    by_cases he : e ≤ 971
    · have hlt : m * 2 ^ e < limit := not_le.1 fun h => ((limit_le_iff hn).1 h).not_ge he
      rw [store_of_le hn he, overflow_of_abs_lt, valueOf_of_isFinite rfl]
      cases s <;> simpa [realOf, abs_of_nonneg hnonneg]
    · have hbig : limit ≤ m * 2 ^ e := (limit_le_iff hn).2 (not_le.1 he)
      rw [store_of_lt (not_le.1 he)]
      cases s with
      | positive =>
        rw [realOf, factor_positive, one_mul, overflow_of_le hbig]
        rfl
      | negative =>
        rw [realOf, factor_negative, neg_one_mul, overflow_of_le_neg (by linarith)]
        rfl

/-! ### Comparing unpacked numbers -/

/-- An outcome of a comparison says how two values lie. -/
def Orders : Ordering → EReal → EReal → Prop
  | .lt, u, v => u < v
  | .eq, u, v => u = v
  | .gt, u, v => v < u

/-- Mantissas in normal form are ordered by their exponents and then by their digits. -/
lemma magnitude_lt {s t : Sign} {m n : ℕ} {d e : ℤ} {hm : 0 < m} {hn : 0 < n}
    (hd : Normal (.finite s m d hm)) (he : Normal (.finite t n e hn)) (h : d < e) :
    (m : ℝ) * 2 ^ d < n * 2 ^ e := by
  have hfull : 2 ^ 52 ≤ n := he.2.2.resolve_right (by have := hd.2.1; omega)
  have hlt : (m : ℝ) < 2 ^ (53 : ℤ) := by exact_mod_cast hd.1
  have hle : (2 : ℝ) ^ (52 : ℤ) ≤ n := by exact_mod_cast hfull
  calc (m : ℝ) * 2 ^ d < 2 ^ (53 : ℤ) * 2 ^ d := mul_lt_mul_of_pos_right hlt (two_zpow_pos d)
    _ = 2 ^ (52 : ℤ) * 2 ^ (d + 1) := by rw [← two_zpow_add, ← two_zpow_add]; congr 1; ring
    _ ≤ n * 2 ^ e := mul_le_mul hle (two_zpow_le.2 h) (two_zpow_pos _).le n.cast_nonneg

lemma orders_magnitudes {s t : Sign} {m n : ℕ} {d e : ℤ} {hm : 0 < m} {hn : 0 < n}
    (hd : Normal (.finite s m d hm)) (he : Normal (.finite t n e hn)) :
    match (compare d e).then (compare m n) with
    | .lt => (m : ℝ) * 2 ^ d < n * 2 ^ e
    | .eq => (m : ℝ) * 2 ^ d = n * 2 ^ e
    | .gt => (n : ℝ) * 2 ^ e < m * 2 ^ d := by
  rcases lt_trichotomy d e with h | rfl | h
  · rw [compare_lt_iff_lt.2 h]
    exact magnitude_lt hd he h
  · rw [compare_eq_iff_eq.2 rfl]
    have hpos := two_zpow_pos d
    rcases lt_trichotomy m n with h | rfl | h
    · rw [compare_lt_iff_lt.2 h]
      exact mul_lt_mul_of_pos_right (Nat.cast_lt.2 h) hpos
    · rw [compare_eq_iff_eq.2 rfl]
      rfl
    · rw [compare_gt_iff_gt.2 h]
      exact mul_lt_mul_of_pos_right (Nat.cast_lt.2 h) hpos
  · rw [compare_gt_iff_gt.2 h]
    exact magnitude_lt he hd h

lemma orders_coe {o : Ordering} {x y : ℝ} :
    Orders o x y ↔ match o with | .lt => x < y | .eq => x = y | .gt => y < x := by
  cases o <;> simp [Orders]

lemma realOf_positive {m : ℕ} {e : ℤ} {hm : 0 < m} :
    realOf (.finite .positive m e hm) = m * 2 ^ e := by
  rw [realOf, factor_positive, one_mul]

lemma realOf_pos {m : ℕ} {e : ℤ} {hm : 0 < m} : 0 < realOf (.finite .positive m e hm) := by
  rw [realOf_positive]
  exact mul_pos (Nat.cast_pos.2 hm) (two_zpow_pos e)

lemma realOf_neg {m : ℕ} {e : ℤ} {hm : 0 < m} : realOf (.finite .negative m e hm) < 0 := by
  rw [realOf, factor_negative, neg_one_mul, neg_lt_zero]
  exact mul_pos (Nat.cast_pos.2 hm) (two_zpow_pos e)

/-- Comparing finite numbers in normal form compares the reals they stand for. -/
lemma compare_finite {f g : UnpackedFloat} (hf : Normal f) (hg : Normal g) (hf' : f.isFinite)
    (hg' : g.isFinite) : ∃ o, f.compare g = some o ∧ Orders o (realOf f) (realOf g) := by
  simp only [orders_coe]
  cases f with
  | notANumber => simp [UnpackedFloat.isFinite] at hf'
  | infinity s => simp [UnpackedFloat.isFinite] at hf'
  | zero s =>
    cases g with
    | notANumber => simp [UnpackedFloat.isFinite] at hg'
    | infinity t => simp [UnpackedFloat.isFinite] at hg'
    | zero t => exact ⟨.eq, rfl, rfl⟩
    | finite t n e hn =>
      cases t with
      | negative => exact ⟨.gt, rfl, realOf_neg⟩
      | positive => exact ⟨.lt, rfl, realOf_pos⟩
  | finite s m d hm =>
    cases g with
    | notANumber => simp [UnpackedFloat.isFinite] at hg'
    | infinity t => simp [UnpackedFloat.isFinite] at hg'
    | zero t =>
      cases s with
      | negative => exact ⟨.lt, rfl, realOf_neg⟩
      | positive => exact ⟨.gt, rfl, realOf_pos⟩
    | finite t n e hn =>
      have h := orders_magnitudes hf hg
      cases s <;> cases t
      · refine ⟨_, rfl, ?_⟩
        simp only [realOf, factor_negative, neg_one_mul]
        cases ho : (compare d e).then (compare m n) <;> rw [ho] at h <;>
          simp only [Ordering.swap] <;> linarith
      · exact ⟨.lt, rfl, realOf_neg.trans realOf_pos⟩
      · exact ⟨.gt, rfl, realOf_neg.trans realOf_pos⟩
      · refine ⟨_, rfl, ?_⟩
        simpa only [realOf, factor_positive, one_mul] using h

lemma isFinite_or_infinity {f : UnpackedFloat} (h : f.isNaN = false) :
    f.isFinite ∨ ∃ s, f = .infinity s := by
  cases f with
  | notANumber => simp [UnpackedFloat.isNaN] at h
  | infinity s => exact .inr ⟨s, rfl⟩
  | zero s => exact .inl rfl
  | finite s m e hm => exact .inl rfl

lemma compare_infinity_left (s : Sign) {g : UnpackedFloat} (hg : g.isFinite) :
    ∃ o, (UnpackedFloat.infinity s).compare g = some o ∧
      Orders o (valueOf (.infinity s)) (valueOf g) := by
  rw [valueOf_of_isFinite hg]
  cases g with
  | notANumber => simp [UnpackedFloat.isFinite] at hg
  | infinity t => simp [UnpackedFloat.isFinite] at hg
  | zero t => cases s; exacts [⟨.lt, rfl, EReal.bot_lt_coe _⟩, ⟨.gt, rfl, EReal.coe_lt_top _⟩]
  | finite t n e hn =>
    cases s; exacts [⟨.lt, rfl, EReal.bot_lt_coe _⟩, ⟨.gt, rfl, EReal.coe_lt_top _⟩]

lemma compare_infinity_right (s : Sign) {f : UnpackedFloat} (hf : f.isFinite) :
    ∃ o, f.compare (.infinity s) = some o ∧ Orders o (valueOf f) (valueOf (.infinity s)) := by
  rw [valueOf_of_isFinite hf]
  cases f with
  | notANumber => simp [UnpackedFloat.isFinite] at hf
  | infinity t => simp [UnpackedFloat.isFinite] at hf
  | zero t => cases s; exacts [⟨.gt, rfl, EReal.bot_lt_coe _⟩, ⟨.lt, rfl, EReal.coe_lt_top _⟩]
  | finite t m e hm =>
    cases s; exacts [⟨.gt, rfl, EReal.bot_lt_coe _⟩, ⟨.lt, rfl, EReal.coe_lt_top _⟩]

/-- **Comparison is comparison of values**, for all numbers but the one that is none. -/
theorem compare_spec {f g : UnpackedFloat} (hf : Normal f) (hg : Normal g)
    (hf' : f.isNaN = false) (hg' : g.isNaN = false) :
    ∃ o, f.compare g = some o ∧ Orders o (valueOf f) (valueOf g) := by
  rcases isFinite_or_infinity hf' with hff | ⟨s, rfl⟩
  · rcases isFinite_or_infinity hg' with hgf | ⟨t, rfl⟩
    · rw [valueOf_of_isFinite hff, valueOf_of_isFinite hgf]
      exact compare_finite hf hg hff hgf
    · exact compare_infinity_right t hff
  · rcases isFinite_or_infinity hg' with hgf | ⟨t, rfl⟩
    · exact compare_infinity_left s hgf
    · cases s <;> cases t
      · exact ⟨.eq, rfl, rfl⟩
      · exact ⟨.lt, rfl, bot_lt_top⟩
      · exact ⟨.gt, rfl, bot_lt_top⟩
      · exact ⟨.eq, rfl, rfl⟩

/-! ### Doubles -/

/-- A double taken apart. -/
def unpacked (x : Float) : UnpackedFloat := x.toModel.unpack

/-- The real that a finite double stands for; the others are given zero. -/
noncomputable def real (x : Float) : ℝ := realOf (unpacked x)

/-- The place of a double on the extended line. -/
noncomputable def value (x : Float) : EReal := valueOf (unpacked x)

lemma normal_unpacked (x : Float) : Normal (unpacked x) := (unpack_normal x.toModel).1

lemma isFinite_unpacked (x : Float) : (unpacked x).isFinite = x.isFinite := rfl

lemma isNaN_unpacked (x : Float) : (unpacked x).isNaN = x.isNaN := rfl

lemma value_of_isFinite {x : Float} (h : x.isFinite) : value x = real x := valueOf_of_isFinite h

variable {x y : Float}

lemma real_of_unpacked {m : ℕ} {e : ℤ} {hm : 0 < m} (h : unpacked x = .finite .positive m e hm) :
    real x = m * 2 ^ e := by
  rw [real, h, realOf_positive]

lemma not_isNaN_of_isFinite (h : x.isFinite) : x.isNaN = false := by
  rw [← isFinite_unpacked] at h
  rw [← isNaN_unpacked]
  cases hx : unpacked x <;> rw [hx] at h <;> first | rfl | simp [UnpackedFloat.isFinite] at h

lemma value_of_isNaN (h : x.isNaN) : value x = ⊤ := by
  rw [← isNaN_unpacked] at h
  unfold value
  cases hx : unpacked x <;> rw [hx] at h <;> first | rfl | simp [UnpackedFloat.isNaN] at h

lemma compare_of_isNaN (h : x.isNaN ∨ y.isNaN) :
    (unpacked x).compare (unpacked y) = none := by
  rw [← isNaN_unpacked, ← isNaN_unpacked] at h
  cases hx : unpacked x <;> cases hy : unpacked y <;> rw [hx, hy] at h <;>
    first | rfl | simp [UnpackedFloat.isNaN] at h

lemma compare_unpacked (hx : x.isNaN = false) (hy : y.isNaN = false) :
    ∃ o, (unpacked x).compare (unpacked y) = some o ∧ Orders o (value x) (value y) :=
  compare_spec (normal_unpacked x) (normal_unpacked y) hx hy

/-- A comparison of doubles in terms of their values. -/
lemma compare_iff {p : Ordering → Bool} {q : Prop}
    (hq : ∀ o, Orders o (value x) (value y) → (p o = true ↔ q)) :
    ((unpacked x).compare (unpacked y)).any p = true ↔ x.isNaN = false ∧ y.isNaN = false ∧ q := by
  rcases hx : x.isNaN with _ | _
  · rcases hy : y.isNaN with _ | _
    · obtain ⟨o, ho, hv⟩ := compare_unpacked hx hy
      simp [ho, hq o hv]
    · simp [compare_of_isNaN (.inr hy)]
  · simp [compare_of_isNaN (.inl hx)]

theorem lt_iff : x < y ↔ x.isNaN = false ∧ y.isNaN = false ∧ value x < value y := by
  rw [← compare_iff (p := (· == .lt))]
  · change ((decide (((unpacked x).compare (unpacked y) == some .lt) = true)) = true) ↔ _
    cases (unpacked x).compare (unpacked y) <;> simp
  · rintro (_ | _ | _) h
    · simpa [Orders] using h
    · simp only [Orders] at h
      simp [h]
    · simpa [Orders] using le_of_lt h

theorem le_iff : x ≤ y ↔ x.isNaN = false ∧ y.isNaN = false ∧ value x ≤ value y := by
  rw [← compare_iff (p := Ordering.isLE)]
  · change ((decide ((((unpacked x).compare (unpacked y)).any (·.isLE)) = true)) = true) ↔ _
    rw [decide_eq_true_eq]
  · rintro (_ | _ | _) h
    · simpa [Orders] using le_of_lt h
    · simp only [Orders] at h
      simp [h]
    · simpa [Orders] using h

theorem beq_iff : (x == y) = true ↔ x.isNaN = false ∧ y.isNaN = false ∧ value x = value y := by
  rw [← compare_iff (p := (· == .eq))]
  · change ((unpacked x).compare (unpacked y) == some .eq) = true ↔ _
    cases (unpacked x).compare (unpacked y) <;> simp
  · rintro (_ | _ | _) h
    · simpa [Orders] using ne_of_lt h
    · simpa [Orders] using h
    · simpa [Orders] using (ne_of_lt h).symm

section Numbers

variable (hx : x.isNaN = false) (hy : y.isNaN = false)

include hx hy

lemma lt_iff_value : x < y ↔ value x < value y := by
  simp only [lt_iff, hx, hy, true_and]

lemma le_iff_value : x ≤ y ↔ value x ≤ value y := by
  simp only [le_iff, hx, hy, true_and]

lemma beq_iff_value : (x == y) = true ↔ value x = value y := by
  simp only [beq_iff, hx, hy, true_and]

lemma not_lt_iff : ¬x < y ↔ y ≤ x := by
  rw [lt_iff_value hx hy, le_iff_value hy hx, not_lt]

lemma not_le_iff : ¬x ≤ y ↔ y < x := by
  rw [le_iff_value hx hy, lt_iff_value hy hx, not_le]

end Numbers

end CodeComplexity.Double
