import CodeComplexity.Proofs.Double.Number

/-!
Doubles of either sign.

An operation in one double that is monotone on the reals, and leaves both ends of the line where
they are, is monotone on all doubles. With that, scaling by a positive double and adding a finite
one keep the order whatever the signs are.
-/

namespace CodeComplexity.Double

open Float.Model Float.Model.UnpackedFloat

variable {x x' y y' c : Float}

lemma isFinite_or_end (x : Float) : x.isFinite ∨ value x = ⊤ ∨ value x = ⊥ := by
  rw [← isFinite_unpacked, value]
  cases unpacked x with
  | notANumber => exact .inr (.inl rfl)
  | infinity s => cases s; exacts [.inr (.inr rfl), .inr (.inl rfl)]
  | zero s => exact .inl rfl
  | finite s m e hm => exact .inl rfl

/-- **Monotone on the whole line**: between finite doubles the order is that of the rounded reals,
and an end has nothing beyond it. -/
theorem value_mono {g : Float → Float} {f : ℝ → ℝ} (hf : Monotone f)
    (hg : ∀ x, x.isFinite → value (g x) = rounded (f (real x)))
    (htop : ∀ x, value x = ⊤ → value (g x) = ⊤) (hbot : ∀ x, value x = ⊥ → value (g x) = ⊥)
    (h : value x ≤ value y) : value (g x) ≤ value (g y) := by
  rcases isFinite_or_end y with hy | hy | hy
  · rcases isFinite_or_end x with hx | hx | hx
    · rw [value_of_isFinite hx, value_of_isFinite hy, EReal.coe_le_coe_iff] at h
      rw [hg x hx, hg y hy]
      exact rounded_mono (hf h)
    · rw [hx, value_of_isFinite hy, top_le_iff] at h
      exact absurd h (EReal.coe_ne_top _)
    · rw [hbot x hx]
      exact bot_le
  · rw [htop y hy]
    exact le_top
  · rw [hbot x (le_bot_iff.1 (hy ▸ h))]
    exact bot_le

/-! ### Scaling -/

section Scaling

variable (hc : c.isFinite) (h0 : 0.0 < c)

include hc h0

lemma value_mul_mono (h : value x ≤ value y) : value (x * c) ≤ value (y * c) := by
  have hpos : 0 ≤ real c := (real_pos hc h0).le
  refine value_mono (g := (· * c)) (f := (· * real c))
    (fun r s hrs => mul_le_mul_of_nonneg_right hrs hpos)
    (fun x hx => (approximates_mul hx hc).value) (fun x hx => ?_) (fun x hx => ?_) h
  · have hx0 : 0 ≤ value x := hx ▸ le_top
    exact value_eq_top (x := x * c) rfl
      (.mul (.of_nonneg hx0) (.of_nonneg (nonneg_of_lt h0)) (.inl (onTop_iff.2 hx)))
  · obtain ⟨m, e, hm, hfinite, -⟩ := unpacked_of_pos hc h0
    rw [value_eq_bot_iff] at hx ⊢
    rw [unpacked_mul, hx, hfinite]
    exact store_infinity _

lemma value_div_mono (h : value x ≤ value y) : value (x / c) ≤ value (y / c) := by
  have hpos := real_pos hc h0
  refine value_mono (g := (· / c)) (f := (· / real c))
    (fun r s hrs => div_le_div_of_nonneg_right hrs hpos.le)
    (fun x hx => (approximates_div hx hc hpos.ne').value) (fun x hx => ?_) (fun x hx => ?_) h
  · obtain ⟨m, e, hm, hfinite, -⟩ := unpacked_of_pos hc h0
    have hne (s : Sign) : unpacked c ≠ .zero s := by simp [hfinite]
    exact value_eq_top (x := x / c) rfl
      (.div (onTop_iff.2 hx) (.of_nonneg (nonneg_of_lt h0)) hne)
  · rw [value_eq_bot_iff] at hx ⊢
    exact unpacked_infinity_div hx hc h0

end Scaling

/-! ### Sums -/

lemma value_add_mono_left (hy : y.isFinite) (h : value x ≤ value x') :
    value (x + y) ≤ value (x' + y) := by
  refine value_mono (g := (· + y)) (f := (· + real y)) (fun r s hrs => add_le_add_left hrs _)
    (fun x hx => (approximates_add hx hy).value) (fun x hx => ?_) (fun x hx => ?_) h
  · rcases hnan : x.isNaN with _ | _
    · rw [value_eq_top_iff hnan] at hx
      rw [value, unpacked_infinity_add hx hy]
      rfl
    · exact value_of_isNaN (isNaN_add_of_left hnan)
  · rw [value_eq_bot_iff] at hx ⊢
    exact unpacked_infinity_add hx hy

lemma value_add_mono_right (hx : x.isNaN = false) (hy : y.isFinite) (hy' : y'.isFinite)
    (h : value y ≤ value y') : value (x + y) ≤ value (x + y') := by
  rcases isFinite_or_infinity (f := unpacked x) hx with hxf | ⟨s, hs⟩
  · rw [value_of_isFinite hy, value_of_isFinite hy', EReal.coe_le_coe_iff] at h
    rw [(approximates_add hxf hy).value, (approximates_add hxf hy').value]
    exact rounded_mono (add_le_add_right h _)
  · rw [value, value, unpacked_infinity_add hs hy, unpacked_infinity_add hs hy']

/-- Nothing brings down what stands on top. -/
lemma value_add_of_top (x : Float) (h : value y = ⊤) : value (x + y) = ⊤ := by
  rcases hy : y.isNaN with _ | _
  case true => exact value_of_isNaN (isNaN_add_of_right hy)
  rcases hx : x.isNaN with _ | _
  case true => exact value_of_isNaN (isNaN_add_of_left hx)
  have hinf := (value_eq_top_iff hy).1 h
  rcases isFinite_or_infinity (f := unpacked x) hx with hfinite | ⟨s, hs⟩
  · rw [value, unpacked_add_infinity hfinite hinf]
    rfl
  · cases s with
    | positive =>
      rw [value, unpacked_add, hs, hinf]
      exact congrArg valueOf (store_infinity _)
    | negative =>
      -- infinities of both signs have no sum
      exact value_of_isNaN ((isNaN_add_iff hx hy).2 (.inr ⟨value_eq_bot_iff.2 hs, h⟩))

/-- What is not below zero may be added to anything without loss of order. -/
lemma value_add_mono_of_below (x : Float) (h : Below y y') : value (x + y) ≤ value (x + y') := by
  by_cases htop : value y' = ⊤
  · rw [value_add_of_top x htop]
    exact le_top
  rcases hx : x.isNaN with _ | _
  case true =>
    rw [value_of_isNaN (isNaN_add_of_left hx), value_of_isNaN (isNaN_add_of_left hx)]
  have htop' : value y ≠ ⊤ := fun hy => htop (top_le_iff.1 (hy ▸ h.le))
  exact value_add_mono_right hx (finite_of_nonneg h.nonneg htop').1
    (finite_of_nonneg h.nonneg_right htop).1 h.le

/-- **Sums in order**: greater summands have no smaller sum, as long as what is added is finite. -/
lemma value_add_mono (hx' : x'.isNaN = false) (hy : y.isFinite) (hy' : y'.isFinite)
    (h : value x ≤ value x') (h' : value y ≤ value y') : value (x + y) ≤ value (x' + y') :=
  (value_add_mono_left hy h).trans (value_add_mono_right hx' hy hy' h')

lemma add_le_add_of_isFinite (hy : y.isFinite) (hy' : y'.isFinite) (h : x ≤ x') (h' : y ≤ y') :
    x + y ≤ x' + y' := by
  obtain ⟨hx, hx', hle⟩ := le_iff.1 h
  rw [le_iff_value (not_isNaN_add hx hy) (not_isNaN_add hx' hy')]
  exact value_add_mono hx' hy hy' hle (le_iff.1 h').2.2

/-! ### Quotients -/

/-- What lies up to the divisor has a quotient up to one, if it has one. -/
lemma value_div_le_one (h0 : 0.0 < y) (h : value x ≤ value y) (hquot : (x / y).isNaN = false) :
    value (x / y) ≤ 1 := by
  have hy : y.isNaN = false := (lt_iff.1 h0).2.1
  have hx : x.isNaN = false := by
    rw [← Bool.not_eq_true]
    intro hnan
    exact Bool.noConfusion (hquot.symm.trans (isNaN_div_of_left hnan))
  rcases isFinite_or_infinity (f := unpacked y) hy with hyf | ⟨s, hs⟩
  · have hpos := real_pos hyf h0
    have hself : value (y / y) = 1 := by
      rw [(approximates_div hyf hyf hpos.ne').value, div_self hpos.ne', ← real_one, rounded_real,
        real_one, EReal.coe_one]
    exact (value_div_mono hyf h0 h).trans_eq hself
  · -- only a finite dividend has a quotient by infinity, and that is zero
    have hinf : y.isInf = true := isInf_iff.2 ⟨s, hs⟩
    have hxf : x.isFinite := by
      refine isFinite_of_not_isInf hx fun hxinf => ?_
      exact Bool.noConfusion (hquot.symm.trans ((isNaN_div_iff hx h0).2 ⟨hxinf, hinf⟩))
    have htop : value y = ⊤ := (isInf_iff_value (zero_le_of_lt h0)).1 hinf
    rw [value_div_infinity hxf ((value_eq_top_iff hy).1 htop)]
    exact zero_le_one

/-- Divided by more, what is not below zero leaves no more. -/
lemma value_div_anti (hx : x.isFinite) (hx0 : 0.0 ≤ x) (hy : 0.0 < y) (h : y ≤ y') :
    value (x / y') ≤ value (x / y) := by
  obtain ⟨-, hnumber, -⟩ := le_iff.1 h
  by_cases htop : value y' = ⊤
  · rw [value_div_infinity hx ((value_eq_top_iff hnumber).1 htop)]
    exact ((Below.refl (nonneg_of_le hx0)).div hy).nonneg
  · obtain ⟨hyf', -⟩ := finite_of_nonneg (nonneg_of_lt (pos_of_pos_of_le hy h)) htop
    have hyf := isFinite_of_le (zero_le_of_lt hy) h hyf'
    have hpos := real_pos hyf hy
    have hle := (le_iff_real hyf hyf').1 h
    rw [(approximates_div hx hyf' (hpos.trans_le hle).ne').value,
      (approximates_div hx hyf hpos.ne').value]
    exact rounded_mono (div_le_div_of_nonneg_left ((le_iff_real rfl hx).1 hx0) hpos hle)

/-- The share of a part in a whole lies between zero and one. -/
lemma share_mem (hx : 0.0 ≤ x) (hfinite : x.isFinite) (hxy : x ≤ y) (hy : 0.0 < y) :
    0.0 ≤ x / y ∧ x / y ≤ 1.0 := by
  have hquot : (x / y).isNaN = false := by
    rw [← Bool.not_eq_true, isNaN_div_iff (not_isNaN_of_isFinite hfinite) hy]
    exact fun h => not_isInf_of_isFinite hfinite h.1
  refine ⟨zero_le_div hx hy hquot, ?_⟩
  rw [le_iff_value hquot rfl, value_one]
  exact value_div_le_one hy (le_iff.1 hxy).2.2 hquot

end CodeComplexity.Double
