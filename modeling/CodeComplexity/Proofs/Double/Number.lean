import CodeComplexity.Proofs.Double.Order

/-!
Results that are numbers.

Sums, products and quotients of numbers are numbers, save in three cases: infinities of both signs
are added, an infinity meets a zero, or one infinity is divided by another. What is not below zero
stays so under the arithmetic, as long as it stays a number.
-/

namespace CodeComplexity.Double

open Float.Model Float.Model.UnpackedFloat

variable {x y c : Float}

/-! ### Infinities -/

lemma unpacked_ne_infinity (hx : x.isFinite) (s : Sign) : unpacked x ≠ .infinity s := fun h => by
  rw [← isFinite_unpacked, h] at hx
  exact Bool.noConfusion hx

lemma isInf_iff : x.isInf = true ↔ ∃ s, unpacked x = .infinity s := by
  change (unpacked x).isInf = true ↔ _
  cases unpacked x <;> simp [UnpackedFloat.isInf]

lemma not_isInf_of_isFinite (hx : x.isFinite) : ¬x.isInf = true := by
  simpa [isInf_iff] using unpacked_ne_infinity hx

lemma isFinite_of_not_isInf (hx : x.isNaN = false) (h : ¬x.isInf = true) : x.isFinite :=
  (isFinite_or_infinity (f := unpacked x) hx).resolve_right fun hinf => h (isInf_iff.2 hinf)

lemma value_eq_bot_iff : value x = ⊥ ↔ unpacked x = .infinity .negative := by
  unfold value
  cases unpacked x with
  | infinity s => cases s <;> simp [valueOf]
  | _ => simp [valueOf]

lemma value_eq_top_iff (hx : x.isNaN = false) : value x = ⊤ ↔ unpacked x = .infinity .positive := by
  rw [← isNaN_unpacked] at hx
  unfold value
  cases h : unpacked x with
  | notANumber => exact absurd hx (by simp [h, UnpackedFloat.isNaN])
  | infinity s => cases s <;> simp [valueOf]
  | _ => simp [valueOf]

lemma beq_zero_iff : (x == 0.0) = true ↔ ∃ s, unpacked x = .zero s := by
  rw [beq_iff, value_zero, ← isNaN_unpacked]
  unfold value
  cases unpacked x with
  | notANumber => simp [UnpackedFloat.isNaN]
  | infinity s => cases s <;> simp [valueOf]
  | zero s => exact iff_of_true ⟨rfl, rfl, rfl⟩ ⟨s, rfl⟩
  | finite s m e hm =>
    refine iff_of_false (fun h => ?_) (by simp)
    have h0 : realOf (.finite s m e hm) = 0 := EReal.coe_eq_coe_iff.1 h.2.2
    cases s
    exacts [realOf_neg.ne h0, realOf_pos.ne' h0]

/-! ### What fails stays so -/

lemma unpacked_of_isNaN (h : x.isNaN = true) : unpacked x = .notANumber :=
  UnpackedFloat.isNaN_iff.1 h

lemma isNaN_of_store (h : unpacked x = store .notANumber) : x.isNaN = true := by
  rw [← isNaN_unpacked, h, store_notANumber]
  rfl

/-! ### Sums -/

lemma unpacked_add (x y : Float) :
    unpacked (x + y) = store (UnpackedFloat.add Format.binary64 (unpacked x) (unpacked y)) := rfl

/-- An infinity absorbs what is finite. -/
lemma unpacked_infinity_add {s : Sign} (hx : unpacked x = .infinity s) (hy : y.isFinite) :
    unpacked (x + y) = .infinity s := by
  rw [unpacked_add, hx]
  rcases zero_or_finite (f := unpacked y) hy with ⟨t, h⟩ | ⟨t, m, e, hm, h⟩ <;> rw [h] <;>
    exact store_infinity s

lemma unpacked_add_infinity {s : Sign} (hx : x.isFinite) (hy : unpacked y = .infinity s) :
    unpacked (x + y) = .infinity s := by
  rw [unpacked_add, hy]
  rcases zero_or_finite (f := unpacked x) hx with ⟨t, h⟩ | ⟨t, m, e, hm, h⟩ <;> rw [h] <;>
    exact store_infinity s

/-- A sum of numbers is a number, unless infinities of both signs meet. -/
theorem isNaN_add_iff (hx : x.isNaN = false) (hy : y.isNaN = false) :
    (x + y).isNaN = true ↔ value x = ⊤ ∧ value y = ⊥ ∨ value x = ⊥ ∧ value y = ⊤ := by
  rw [value_eq_top_iff hx, value_eq_top_iff hy, value_eq_bot_iff, value_eq_bot_iff]
  rcases isFinite_or_infinity (f := unpacked x) hx with hxf | ⟨s, hs⟩ <;>
    rcases isFinite_or_infinity (f := unpacked y) hy with hyf | ⟨t, ht⟩
  · rw [(approximates_add hxf hyf).not_isNaN]
    simp [unpacked_ne_infinity hxf]
  · rw [← isNaN_unpacked, unpacked_add_infinity hxf ht]
    simp [unpacked_ne_infinity hxf, UnpackedFloat.isNaN]
  · rw [← isNaN_unpacked, unpacked_infinity_add hs hyf]
    simp [unpacked_ne_infinity hyf, UnpackedFloat.isNaN]
  · rw [← isNaN_unpacked, unpacked_add, hs, ht]
    cases s <;> cases t <;> simp [UnpackedFloat.add, UnpackedFloat.isNaN]

lemma not_isNaN_add (hx : x.isNaN = false) (hy : y.isFinite) : (x + y).isNaN = false := by
  rw [← Bool.not_eq_true, isNaN_add_iff hx (not_isNaN_of_isFinite hy), value_of_isFinite hy]
  simp

lemma isNaN_add_of_left (h : x.isNaN = true) : (x + y).isNaN = true :=
  isNaN_of_store (by rw [unpacked_add, unpacked_of_isNaN h]; rfl)

lemma isNaN_add_of_right (h : y.isNaN = true) : (x + y).isNaN = true :=
  isNaN_of_store (by rw [unpacked_add, unpacked_of_isNaN h]; cases unpacked x <;> rfl)

/-! ### Products and quotients -/

lemma unpacked_mul (x y : Float) :
    unpacked (x * y) = store (UnpackedFloat.mul Format.binary64 (unpacked x) (unpacked y)) := rfl

/-- A product of numbers is a number, unless an infinity meets a zero. -/
theorem isNaN_mul_iff (hx : x.isNaN = false) (hy : y.isNaN = false) :
    (x * y).isNaN = true ↔
      x.isInf = true ∧ (y == 0.0) = true ∨ (x == 0.0) = true ∧ y.isInf = true := by
  simp only [isInf_iff, beq_zero_iff]
  rcases isFinite_or_infinity (f := unpacked x) hx with hxf | ⟨s, hs⟩ <;>
    rcases isFinite_or_infinity (f := unpacked y) hy with hyf | ⟨t, ht⟩
  · rw [(approximates_mul hxf hyf).not_isNaN]
    simp [unpacked_ne_infinity hxf, unpacked_ne_infinity hyf]
  · rw [← isNaN_unpacked, unpacked_mul, ht]
    rcases zero_or_finite (f := unpacked x) hxf with ⟨u, h⟩ | ⟨u, m, e, hm, h⟩ <;> rw [h] <;>
      simp [UnpackedFloat.mul, UnpackedFloat.isNaN]
  · rw [← isNaN_unpacked, unpacked_mul, hs]
    rcases zero_or_finite (f := unpacked y) hyf with ⟨u, h⟩ | ⟨u, m, e, hm, h⟩ <;> rw [h] <;>
      simp [UnpackedFloat.mul, UnpackedFloat.isNaN]
  · rw [← isNaN_unpacked, unpacked_mul, hs, ht]
    simp [UnpackedFloat.mul, UnpackedFloat.isNaN]

lemma isNaN_mul_of_left (h : x.isNaN = true) : (x * y).isNaN = true :=
  isNaN_of_store (by rw [unpacked_mul, unpacked_of_isNaN h]; rfl)

lemma unpacked_div (x y : Float) :
    unpacked (x / y) = store (UnpackedFloat.div Format.binary64 (unpacked x) (unpacked y)) := rfl

/-- A quotient of a number by a positive one is a number, unless both are infinite. -/
theorem isNaN_div_iff (hx : x.isNaN = false) (hy : 0.0 < y) :
    (x / y).isNaN = true ↔ x.isInf = true ∧ y.isInf = true := by
  have hy' : y.isNaN = false := (lt_iff.1 hy).2.1
  simp only [isInf_iff]
  rcases isFinite_or_infinity (f := unpacked y) hy' with hyf | ⟨t, ht⟩
  · rw [not_isNaN_div hx hyf hy]
    simp [unpacked_ne_infinity hyf]
  · rw [← isNaN_unpacked, unpacked_div, ht]
    rcases isFinite_or_infinity (f := unpacked x) hx with hxf | ⟨s, hs⟩
    · rcases zero_or_finite (f := unpacked x) hxf with ⟨u, h⟩ | ⟨u, m, e, hm, h⟩ <;> rw [h] <;>
        simp [UnpackedFloat.div, UnpackedFloat.isNaN]
    · rw [hs]
      simp [UnpackedFloat.div, UnpackedFloat.isNaN]

lemma isNaN_div_of_left (h : x.isNaN = true) : (x / y).isNaN = true :=
  isNaN_of_store (by rw [unpacked_div, unpacked_of_isNaN h]; rfl)

lemma isNaN_div_of_right (h : y.isNaN = true) : (x / y).isNaN = true :=
  isNaN_of_store (by rw [unpacked_div, unpacked_of_isNaN h]; cases unpacked x <;> rfl)

/-! ### What is not below zero -/

lemma zero_le_iff : 0.0 ≤ x ↔ x.isNaN = false ∧ 0 ≤ value x := by
  rw [le_iff, value_zero]
  exact and_iff_right rfl

lemma not_isNaN_of_zero_le (h : 0.0 ≤ x) : x.isNaN = false := (zero_le_iff.1 h).1

lemma zero_le_of_lt (h : 0.0 < x) : 0.0 ≤ x := zero_le_iff.2 ⟨(lt_iff.1 h).2.1, nonneg_of_lt h⟩

lemma zero_le_of_infinity (h : unpacked x = .infinity .positive) : 0.0 ≤ x := by
  rw [zero_le_iff, ← isNaN_unpacked, value, h]
  exact ⟨rfl, le_top⟩

lemma ne_zero_of_pos (h : 0.0 < x) : ¬(x == 0.0) = true := by
  rw [beq_iff, value_zero]
  exact fun hx => (pos_of_lt h).ne' hx.2.2

/-- No sum of what is not below zero fails to be a number, unless a summand does. -/
lemma isNaN_add_iff_of_nonneg (hx : 0 ≤ value x) (hy : 0 ≤ value y) :
    (x + y).isNaN = true ↔ x.isNaN = true ∨ y.isNaN = true := by
  refine ⟨fun h => ?_, fun h => h.elim isNaN_add_of_left isNaN_add_of_right⟩
  by_contra hnumber
  simp only [not_or, Bool.not_eq_true] at hnumber
  rcases (isNaN_add_iff hnumber.1 hnumber.2).1 h with ⟨-, hbot⟩ | ⟨hbot, -⟩
  · exact EReal.bot_lt_zero.not_ge (hbot ▸ hy)
  · exact EReal.bot_lt_zero.not_ge (hbot ▸ hx)

lemma isNaN_foldl_iff {ι : Type} (l : List ι) {f : ι → Float} (h : ∀ i, 0 ≤ value (f i)) {a : Float}
    (ha : 0 ≤ value a) :
    (l.foldl (fun s i => s + f i) a).isNaN = true ↔
      a.isNaN = true ∨ ∃ i ∈ l, (f i).isNaN = true := by
  induction l generalizing a with
  | nil => simp
  | cons i rest ih =>
    rw [List.foldl_cons, ih ((Below.refl ha).add (.refl (h i))).nonneg,
      isNaN_add_iff_of_nonneg ha (h i), List.exists_mem_cons_iff, or_assoc]

lemma zero_le_add (hx : 0.0 ≤ x) (hy : 0.0 ≤ y) : 0.0 ≤ x + y := by
  obtain ⟨hnx, hx⟩ := zero_le_iff.1 hx
  obtain ⟨hny, hy⟩ := zero_le_iff.1 hy
  refine zero_le_iff.2 ⟨?_, ((Below.refl hx).add (.refl hy)).nonneg⟩
  rw [← Bool.not_eq_true, isNaN_add_iff_of_nonneg hx hy, hnx, hny]
  simp

lemma zero_le_foldl {ι : Type} (l : List ι) {f : ι → Float} (h : ∀ i, 0.0 ≤ f i) :
    0.0 ≤ l.foldl (fun s i => s + f i) 0 :=
  List.foldlRecOn (motive := (0.0 ≤ ·)) l _ (by decide) fun _ hs i _ => zero_le_add hs (h i)

lemma zero_le_mul (hx : 0.0 ≤ x) (hy : 0.0 ≤ y) (h : (x * y).isNaN = false) : 0.0 ≤ x * y :=
  zero_le_iff.2 ⟨h, ((Below.refl (nonneg_of_le hx)).mul (.refl (nonneg_of_le hy))).nonneg⟩

lemma zero_le_div (hx : 0.0 ≤ x) (hy : 0.0 < y) (h : (x / y).isNaN = false) : 0.0 ≤ x / y :=
  zero_le_iff.2 ⟨h, ((Below.refl (nonneg_of_le hx)).div hy).nonneg⟩

/-- A positive finite factor changes nothing about being a number. -/
lemma isNaN_mul_right (hc : c.isFinite) (h0 : 0.0 < c) : (x * c).isNaN = x.isNaN := by
  rcases hx : x.isNaN with _ | _
  · rw [← Bool.not_eq_true, isNaN_mul_iff hx (not_isNaN_of_isFinite hc)]
    simp [ne_zero_of_pos h0, not_isInf_of_isFinite hc]
  · exact isNaN_mul_of_left hx

lemma isNaN_div_right (hc : c.isFinite) (h0 : 0.0 < c) : (x / c).isNaN = x.isNaN := by
  rcases hx : x.isNaN with _ | _
  · exact not_isNaN_div hx hc h0
  · exact isNaN_div_of_left hx

lemma zero_le_mul_right (hx : 0.0 ≤ x) (hc : c.isFinite) (h0 : 0.0 < c) : 0.0 ≤ x * c :=
  zero_le_mul hx (zero_le_of_lt h0) (by rw [isNaN_mul_right hc h0, not_isNaN_of_zero_le hx])

lemma zero_le_mul_left (hx : 0.0 ≤ x) (hc : c.isFinite) (h0 : 0.0 < c) : 0.0 ≤ c * x := by
  refine zero_le_mul (zero_le_of_lt h0) hx ?_
  rw [← Bool.not_eq_true, isNaN_mul_iff (not_isNaN_of_isFinite hc) (not_isNaN_of_zero_le hx)]
  simp [ne_zero_of_pos h0, not_isInf_of_isFinite hc]

lemma zero_le_mul_self (hx : x.isNaN = false) : 0.0 ≤ x * x := by
  rcases isFinite_or_infinity (f := unpacked x) hx with hxf | ⟨s, hs⟩
  · have h := approximates_mul hxf hxf
    exact zero_le_iff.2 ⟨h.not_isNaN, h.value ▸ rounded_nonneg (mul_self_nonneg _)⟩
  · refine zero_le_of_infinity ?_
    rw [unpacked_mul, hs]
    cases s <;> exact store_infinity _

/-- A square is not below zero, if it is a number. -/
lemma value_mul_self_nonneg (x : Float) : 0 ≤ value (x * x) := by
  rcases hx : x.isNaN with _ | _
  · exact nonneg_of_le (zero_le_mul_self hx)
  · exact value_of_isNaN (isNaN_mul_of_left hx) ▸ le_top

lemma value_add_zero (hx : x.isNaN = false) : value (x + 0.0) = value x := by
  rcases isFinite_or_infinity (f := unpacked x) hx with hxf | ⟨s, hs⟩
  · rw [(approximates_add hxf rfl).value, real_zero, add_zero, rounded_real, value_of_isFinite hxf]
  · rw [value, unpacked_infinity_add hs rfl, value, hs]

lemma value_zero_add (hx : x.isNaN = false) : value (0.0 + x) = value x := by
  rcases isFinite_or_infinity (f := unpacked x) hx with hxf | ⟨s, hs⟩
  · rw [(approximates_add rfl hxf).value, real_zero, zero_add, rounded_real, value_of_isFinite hxf]
  · rw [value, unpacked_add_infinity rfl hs, value, hs]

/-- A sum is at least each of its parts. -/
lemma le_add (hx : 0.0 ≤ x) (hy : 0.0 ≤ y) : x ≤ x + y ∧ y ≤ x + y := by
  obtain ⟨hnx, hx0⟩ := zero_le_iff.1 hx
  obtain ⟨hny, hy0⟩ := zero_le_iff.1 hy
  have hsum := not_isNaN_of_zero_le (zero_le_add hx hy)
  rw [le_iff_value hnx hsum, le_iff_value hny hsum]
  have hzero {z : Float} (h : 0 ≤ value z) : Below 0.0 z := ⟨value_zero.ge, value_zero.trans_le h⟩
  have hleft := ((Below.refl hx0).add (hzero hy0)).le
  have hright := ((hzero hx0).add (.refl hy0)).le
  exact ⟨value_add_zero hnx ▸ hleft, value_zero_add hny ▸ hright⟩

lemma pos_of_pos_of_le (hx : 0.0 < x) (h : x ≤ y) : 0.0 < y := by
  rw [lt_iff_value rfl (le_iff.1 h).2.1, value_zero]
  exact (pos_of_lt hx).trans_le (le_iff.1 h).2.2

/-- What lies between zero and a finite number is finite. -/
lemma isFinite_of_le (hx : 0.0 ≤ x) (h : x ≤ y) (hy : y.isFinite) : x.isFinite := by
  have hle := (le_iff.1 h).2.2
  rw [value_of_isFinite hy] at hle
  exact (finite_of_nonneg (nonneg_of_le hx) (hle.trans_lt (EReal.coe_lt_top _)).ne).1

/-! ### Below every finite number -/

lemma value_eq_bot_iff_lt : value x = ⊥ ↔ x.isInf = true ∧ x < 0.0 := by
  rw [value_eq_bot_iff, isInf_iff, lt_iff, value_zero]
  constructor
  · intro h
    rw [← isNaN_unpacked, value, h]
    exact ⟨⟨_, rfl⟩, rfl, rfl, EReal.bot_lt_zero⟩
  · rintro ⟨⟨s, h⟩, -, -, hneg⟩
    rw [value, h] at hneg
    cases s
    exacts [h, absurd hneg not_top_lt]

lemma value_add_ne_bot (hx : 0.0 ≤ x) (hy : y.isNaN = false) (hbot : value y ≠ ⊥) :
    value (x + y) ≠ ⊥ := by
  obtain ⟨hnx, hx0⟩ := zero_le_iff.1 hx
  rcases le_or_gt 0 (value y) with hy0 | hneg
  · exact (EReal.bot_lt_zero.trans_le ((Below.refl hx0).add (.refl hy0)).nonneg).ne'
  -- what is below zero and not infinite
  have hyf : y.isFinite := by
    refine isFinite_of_not_isInf hy fun hinf => hbot ?_
    exact value_eq_bot_iff_lt.2 ⟨hinf, (lt_iff_value hy rfl).2 (hneg.trans_eq value_zero.symm)⟩
  by_cases htop : value x = ⊤
  · rw [value, unpacked_infinity_add ((value_eq_top_iff hnx).1 htop) hyf]
    exact top_ne_bot
  · obtain ⟨hxf, hreal⟩ := finite_of_nonneg hx0 htop
    have hle := (approximates_add hxf hyf).le_value hyf (by linarith)
    rw [value_of_isFinite hyf] at hle
    exact ((EReal.bot_lt_coe _).trans_le hle).ne'

lemma isInf_iff_value (hx : 0.0 ≤ x) : x.isInf = true ↔ value x = ⊤ := by
  obtain ⟨hnx, hx0⟩ := zero_le_iff.1 hx
  refine ⟨fun h => ?_, fun h => isInf_iff.2 ⟨_, (value_eq_top_iff hnx).1 h⟩⟩
  by_contra htop
  exact not_isInf_of_isFinite (finite_of_nonneg hx0 htop).1 h

/-- Between two summands that are not below zero, only one that is infinitely far below fails. -/
lemma sum_number_iff (hx : 0.0 ≤ x) (hy : y.isNaN = false) (hc : 0.0 ≤ c) :
    (x + y).isNaN = false ∧ (x + y + c).isNaN = false ↔
      ¬(value y = ⊥ ∧ (value x = ⊤ ∨ value c = ⊤)) := by
  obtain ⟨hnx, hx0⟩ := zero_le_iff.1 hx
  obtain ⟨hnc, hc0⟩ := zero_le_iff.1 hc
  have hxbot : value x ≠ ⊥ := (EReal.bot_lt_zero.trans_le hx0).ne'
  have hcbot : value c ≠ ⊥ := (EReal.bot_lt_zero.trans_le hc0).ne'
  have hfirst : (x + y).isNaN = false ↔ ¬(value x = ⊤ ∧ value y = ⊥) := by
    rw [← Bool.not_eq_true, isNaN_add_iff hnx hy]
    simp [hxbot]
  have hsecond (h : (x + y).isNaN = false) :
      (x + y + c).isNaN = false ↔ ¬(value (x + y) = ⊥ ∧ value c = ⊤) := by
    rw [← Bool.not_eq_true, isNaN_add_iff h hnc]
    simp [hcbot]
  by_cases hbot : value y = ⊥
  · by_cases htop : value x = ⊤
    · exact iff_of_false (fun h => hfirst.1 h.1 ⟨htop, hbot⟩) fun h => h ⟨hbot, .inl htop⟩
    · have hsum := hfirst.2 fun h => htop h.1
      have hxf := (finite_of_nonneg hx0 htop).1
      have hlow : value (x + y) = ⊥ :=
        value_eq_bot_iff.2 (unpacked_add_infinity hxf (value_eq_bot_iff.1 hbot))
      rw [and_iff_right hsum, hsecond hsum]
      simp [hlow, hbot, htop]
  · have hsum := hfirst.2 fun h => hbot h.2
    refine iff_of_true ⟨hsum, (hsecond hsum).2 fun h => ?_⟩ fun h => hbot h.1
    exact value_add_ne_bot hx hy hbot h.1

/-! ### Roots and magnitudes -/

lemma unpacked_sqrt (x : Float) :
    unpacked x.sqrt = store (UnpackedFloat.sqrt Format.binary64 (unpacked x)) := rfl

lemma unpacked_abs (x : Float) : unpacked x.abs = store (unpacked x).abs := rfl

lemma zero_le_sqrt (hx : 0.0 ≤ x) : 0.0 ≤ x.sqrt := by
  obtain ⟨hnumber, hnonneg⟩ := zero_le_iff.1 hx
  by_cases htop : value x = ⊤
  · refine zero_le_of_infinity ?_
    rw [unpacked_sqrt, (value_eq_top_iff hnumber).1 htop]
    exact store_infinity _
  · obtain ⟨hfinite, h0⟩ := finite_of_nonneg hnonneg htop
    exact zero_le_iff.2 ⟨(approximates_sqrt hfinite h0).not_isNaN, (Below.refl hnonneg).sqrt.nonneg⟩

lemma isNaN_sqrt_of_isNaN (h : x.isNaN = true) : x.sqrt.isNaN = true :=
  isNaN_of_store (by rw [unpacked_sqrt, unpacked_of_isNaN h]; rfl)

lemma zero_le_abs (hx : x.isNaN = false) : 0.0 ≤ x.abs := by
  rcases isFinite_or_infinity (f := unpacked x) hx with hxf | ⟨s, hs⟩
  · obtain ⟨hfinite, hreal⟩ := real_abs hxf
    rw [le_iff_real rfl hfinite, real_zero, hreal]
    exact abs_nonneg _
  · refine zero_le_of_infinity ?_
    rw [unpacked_abs, hs]
    exact store_infinity _

lemma isNaN_abs_of_isNaN (h : x.isNaN = true) : x.abs.isNaN = true :=
  isNaN_of_store (by rw [unpacked_abs, unpacked_of_isNaN h]; rfl)

/-- Only between infinities is a difference of numbers none. -/
lemma not_isNaN_sub (hx : x.isFinite) (hy : y.isNaN = false) : (x - y).isNaN = false := by
  rcases isFinite_or_infinity (f := unpacked y) hy with hyf | ⟨s, hs⟩
  · exact (approximates_sub hx hyf).not_isNaN
  · have h : unpacked (x - y) =
        store (UnpackedFloat.sub Format.binary64 (unpacked x) (unpacked y)) := rfl
    rw [← isNaN_unpacked, h, hs]
    rcases zero_or_finite (f := unpacked x) hx with ⟨t, hf⟩ | ⟨t, m, e, hm, hf⟩ <;> rw [hf] <;>
      exact congrArg _ (store_infinity _)

end CodeComplexity.Double
