import CodeComplexity.Proofs.Double.Summation
import CodeComplexity.Proofs.Engine.Overflow
import CodeComplexity.Proofs.Rounding.Laws

/-!
The weighted score, added up twice.

The linear part of a score and the total of a decomposition are made of the same five products, but
the one adds them up from zero in canonical order and the other part by part. Both orders are fixed
and neither is the exact sum, so after rounding to hundredths the two may differ: where the exact sum
lies between two hundredths, the orders can fall on different sides. They agree wherever it is clear
of these boundaries, wherever nothing is rounded, and past the end of the range.
-/

namespace CodeComplexity

open Double

/-! ### Hundredths -/

namespace Rounding

variable {x y : Float} {k m : ℕ} {s : ℝ}

/-- The number of hundredths that rounding to two places makes of a double. -/
noncomputable def hundredths (x : Float) : ℤ := awayFromZero (real (x * 100.0))

lemma abs_awayFromZero_sub_le {r : ℝ} (hr : 0 ≤ r) : |(awayFromZero r : ℝ) - r| ≤ 1 / 2 := by
  have hlow := Int.floor_le (r + 1 / 2)
  have hhigh := Int.lt_floor_add_one (r + 1 / 2)
  rw [awayFromZero_of_nonneg hr, abs_le]
  constructor <;> linarith

lemma real_toPlaces_two (hx : (x * 100.0).isFinite) :
    (toPlaces x 2).isFinite ∧ real (toPlaces x 2) = nearest (hundredths x / 100) := by
  have h := exact_two.real_toPlaces (x := x)
  rw [← exact_two.real_eq, powerOfTen_two, real_hundred] at h
  exact h hx

/-- Doubles with the same number of hundredths are rounded to the same double. -/
lemma toPlaces_two_congr (hx : NoMinus x) (hy : NoMinus y) (hxf : (x * 100.0).isFinite)
    (hyf : (y * 100.0).isFinite) (h : hundredths x = hundredths y) :
    toPlaces x 2 = toPlaces y 2 := by
  have hcongr := exact_two.toPlaces_congr hx hy
  rw [powerOfTen_two] at hcongr
  exact hcongr hxf hyf h

/-! #### Estimates -/

/-- How far from its exact value a sum may be before it is rounded to hundredths, counted in
hundredths. -/
noncomputable def slack (s : ℝ) : ℝ := 2 ^ (-42 : ℤ) * (1 + s)

lemma scaled_of_estimates (h : Estimates k s x) (hs : 0 ≤ s) (hk : k ≤ 5) (hm : m + 8 < 1024)
    (hrange : s ≤ 2 ^ m) :
    (x * 100.0).isFinite ∧ |real (x * 100.0) - 100 * s| ≤ slack s := by
  have habs := h.abs_le hs (by omega)
  have hscaled : |real x * 100| ≤ 200 * s := by
    rw [abs_mul, abs_of_pos (by norm_num : (0 : ℝ) < 100)]
    linarith
  have hclose : |real x * 100 - 100 * s| ≤ 500 * 2 ^ (-52 : ℤ) * s := by
    have hmono := (h.mono hs hk).close
    rw [show real x * 100 - 100 * s = 100 * (real x - s) by ring, abs_mul,
      abs_of_pos (by norm_num : (0 : ℝ) < 100)]
    push_cast at hmono
    linarith
  have happrox := approximates_mul (y := 100.0) h.finite rfl
  rw [real_hundred] at happrox
  obtain ⟨hfinite, hreal⟩ := happrox.real_eq (k := m + 8) (hscaled.trans (by
    rw [pow_add]
    have : (0 : ℝ) ≤ 2 ^ m := by positivity
    linarith)) hm
  refine ⟨hfinite, ?_⟩
  have hround := abs_nearest_sub_le (real x * 100)
  have htiny : (2 : ℝ) ^ (-1075 : ℤ) ≤ 2 ^ (-42 : ℤ) := two_zpow_le.2 (by norm_num)
  have hpart : (2 : ℝ) ^ (-53 : ℤ) * |real x * 100| ≤ 2 ^ (-53 : ℤ) * (200 * s) :=
    mul_le_mul_of_nonneg_left hscaled (two_zpow_pos _).le
  calc |real (x * 100.0) - 100 * s|
      = |nearest (real x * 100) - real x * 100 + (real x * 100 - 100 * s)| := by
        rw [hreal]
        congr 1
        ring
    _ ≤ 2 ^ (-53 : ℤ) * (200 * s) + 2 ^ (-42 : ℤ) + 500 * 2 ^ (-52 : ℤ) * s :=
        (abs_add_le _ _).trans (by linarith)
    _ ≤ slack s := by
        rw [slack]
        norm_num
        linarith

/-- A real whose hundredths do not depend on a slack in it. -/
def ClearOfHalves (s : ℝ) : Prop := ∀ j : ℤ, slack s < |100 * s - (j + 1 / 2)|

lemma ClearOfHalves.slack_lt (h : ClearOfHalves s) : slack s < 1 / 2 := by
  refine (h ⌊100 * s⌋).trans_le ?_
  have hlow := Int.floor_le (100 * s)
  have hhigh := Int.lt_floor_add_one (100 * s)
  rw [abs_le]
  constructor <;> linarith

lemma hundredths_of_clear (h : ClearOfHalves s)
    (hclose : |real (x * 100.0) - 100 * s| ≤ slack s) : hundredths x = ⌊100 * s + 1 / 2⌋ := by
  set j := ⌊100 * s + 1 / 2⌋ with hj
  have hlow : (j : ℝ) ≤ 100 * s + 1 / 2 := Int.floor_le _
  have hhigh : 100 * s + 1 / 2 < j + 1 := Int.lt_floor_add_one _
  -- the boundaries next to the hundredth are both out of reach
  have hbelow := h (j - 1)
  have habove := h j
  push_cast at hbelow
  rw [abs_of_nonneg (by linarith)] at hbelow
  rw [abs_of_neg (by linarith)] at habove
  obtain ⟨hclose1, hclose2⟩ := abs_le.1 hclose
  exact awayFromZero_eq (abs_lt.2 ⟨by linarith, by linarith⟩)

lemma abs_hundredths_sub_le (h0 : 0 ≤ real (x * 100.0))
    (hclose : |real (x * 100.0) - 100 * s| ≤ slack s) :
    |(hundredths x : ℝ) - 100 * s| ≤ 1 / 2 + slack s := by
  calc |(hundredths x : ℝ) - 100 * s|
      = |hundredths x - real (x * 100.0) + (real (x * 100.0) - 100 * s)| := by
        congr 1
        ring
    _ ≤ 1 / 2 + slack s :=
        (abs_add_le _ _).trans (add_le_add (abs_awayFromZero_sub_le h0) hclose)

/-- Rounding to two places moves an estimate by half a hundredth, and by what doubles cost. -/
lemma abs_toPlaces_sub_le (hs : 0 ≤ s) (hfinite : (x * 100.0).isFinite)
    (h0 : 0 ≤ real (x * 100.0)) (hclose : |real (x * 100.0) - 100 * s| ≤ slack s) :
    |real (toPlaces x 2) - s| ≤ 1 / 200 + 2 ^ (-47 : ℤ) * (1 + s) := by
  have hhundredths := abs_hundredths_sub_le h0 hclose
  have hslack : slack s ≤ 100 * (2 ^ (-48 : ℤ) * (1 + s)) := by
    rw [slack]
    norm_num
    linarith
  have hmoved : |(hundredths x / 100 : ℝ) - s| ≤ 1 / 200 + 2 ^ (-48 : ℤ) * (1 + s) := by
    rw [show (hundredths x / 100 : ℝ) - s = (hundredths x - 100 * s) / 100 by ring, abs_div,
      abs_of_pos (by norm_num : (0 : ℝ) < 100), div_le_iff₀ (by norm_num)]
    generalize (2 : ℝ) ^ (-48 : ℤ) * (1 + s) = c at hslack ⊢
    linarith
  have hsize : |(hundredths x / 100 : ℝ)| ≤ 2 * (1 + s) := by
    have hsmall : (2 : ℝ) ^ (-48 : ℤ) * (1 + s) ≤ 1 / 2 * (1 + s) :=
      mul_le_mul_of_nonneg_right (by norm_num) (by linarith)
    calc |(hundredths x / 100 : ℝ)| = |hundredths x / 100 - s + s| := by rw [sub_add_cancel]
      _ ≤ |hundredths x / 100 - s| + |s| := abs_add_le _ _
      _ ≤ 2 * (1 + s) := by rw [abs_of_nonneg hs]; linarith
  have hround := abs_nearest_sub_le (hundredths x / 100)
  have htiny : (2 : ℝ) ^ (-1075 : ℤ) ≤ 2 ^ (-52 : ℤ) := two_zpow_le.2 (by norm_num)
  have hpart := mul_le_mul_of_nonneg_left hsize (two_zpow_pos (-53)).le
  rw [(real_toPlaces_two hfinite).2]
  calc |nearest (hundredths x / 100) - s|
      = |nearest (hundredths x / 100) - hundredths x / 100 + (hundredths x / 100 - s)| := by
        rw [sub_add_sub_cancel]
    _ ≤ 2 ^ (-53 : ℤ) * (2 * (1 + s)) + 2 ^ (-52 : ℤ) +
        (1 / 200 + 2 ^ (-48 : ℤ) * (1 + s)) :=
        (abs_add_le _ _).trans (add_le_add (hround.trans (add_le_add hpart htiny)) hmoved)
    _ ≤ 1 / 200 + 2 ^ (-47 : ℤ) * (1 + s) := by
        norm_num
        linarith

/-- Where a hundred times a double runs off the range, rounding does. -/
lemma toPlaces_two_of_large (h : 1e307 ≤ x) : value (toPlaces x 2) = ⊤ := by
  have hinfinite : toPlaces 1e307 2 = 1.0 / 0.0 := by
    rw [toPlaces, powerOfTen_two]
    decide +kernel
  have htop : value (toPlaces 1e307 2) = ⊤ := by
    rw [hinfinite]
    rfl
  refine top_le_iff.1 (htop.symm.trans_le ?_)
  exact exact_two.value_toPlaces_mono (le_iff.1 h).2.2

end Rounding

/-! ### Orders of summation -/

namespace WeightedTotal

open Rounding (slack hundredths ClearOfHalves toPlaces)

/-- An order that adds up one value for each dimension, and zeros besides. -/
structure Adds (t : Summation) (p : PerDimension Float) : Prop where
  forall_summands : ∀ q : Float → Prop, q 0.0 → (∀ d, q (p.get d)) → ∀ x ∈ t.summands, q x
  mem_summands : ∀ d, p.get d ∈ t.summands
  exact : t.exact = (p.map real).total
  depth : t.depth ≤ 5

/-- Products whose sum takes no rounding: they are multiples of one power of two that leaves room
for the sum in the digits of a double. -/
def HasExactSum (p : PerDimension Float) : Prop :=
  ∃ e : ℤ, -1074 ≤ e ∧ e ≤ 971 ∧ (∀ d, ∃ n, Multiple e n (p.get d)) ∧
    (p.map real).total < 2 ^ (e + 53)

section

variable {p : PerDimension Float} {t u : Summation} (ht : Adds t p) (hu : Adds u p)
  (h : ∀ d, 0.0 ≤ p.get d)

include ht h

lemma Adds.zero_le_summands : ∀ x ∈ t.summands, 0.0 ≤ x := ht.forall_summands _ (by decide) h

lemma Adds.zero_le_result : 0.0 ≤ t.result := Summation.zero_le_result (ht.zero_le_summands h)

lemma Adds.result_ne (hne : ∃ d, p.get d ≠ -0.0) : t.result ≠ -0.0 := by
  obtain ⟨d, hd⟩ := hne
  rw [Ne, Summation.result_eq_neg_zero_iff (ht.zero_le_summands h)]
  exact fun hall => hd (hall _ (ht.mem_summands d))

lemma Adds.le_result (d : Dimension) : value (p.get d) ≤ value t.result :=
  Summation.le_result (ht.zero_le_summands h) _ (ht.mem_summands d)

lemma Adds.noMinus_result (hne : ∃ d, p.get d ≠ -0.0) : NoMinus t.result :=
  Plain.noMinus ⟨ht.zero_le_result h, ht.result_ne h hne⟩

include hu

/-- **Orders agree on sums that take no rounding.** -/
theorem Adds.result_eq_of_exact (hne : ∃ d, p.get d ≠ -0.0) (hexact : HasExactSum p) :
    t.result = u.result := by
  obtain ⟨e, hlow, hhigh, hmultiple, hrange⟩ := hexact
  have hzero : ∃ n, Multiple e n 0.0 := ⟨0, rfl, by simp⟩
  obtain ⟨m, hm, hmexact⟩ := Summation.exists_multiple hlow hhigh
    (ht.forall_summands _ hzero hmultiple) (ht.exact.trans_lt hrange)
  obtain ⟨n, hn, hnexact⟩ := Summation.exists_multiple hlow hhigh
    (hu.forall_summands _ hzero hmultiple) (hu.exact.trans_lt hrange)
  have hreal : real t.result = real u.result := by
    rw [hm.eq, hn.eq, ← hmexact, ← hnexact, ht.exact, hu.exact]
  exact (alike_of_real hm.finite hn.finite hreal).eq (ht.noMinus_result h hne)
    (hu.noMinus_result h hne)

/-- **Orders agree past the end of the range.** -/
theorem Adds.toPlaces_eq_of_large (hlarge : ∃ d, 1e307 ≤ p.get d) :
    toPlaces t.result 2 = toPlaces u.result 2 ∧ (toPlaces u.result 2).isInf := by
  obtain ⟨d, hd⟩ := hlarge
  have htop {t : Summation} (ht : Adds t p) : value (toPlaces t.result 2) = ⊤ := by
    refine Rounding.toPlaces_two_of_large (le_iff.2 ⟨(le_iff.1 hd).1, ?_, ?_⟩)
    · exact not_isNaN_of_zero_le (ht.zero_le_result h)
    · exact (le_iff.1 hd).2.2.trans (ht.le_result h d)
  have ht0 := Rounding.exact_two.zero_le_toPlaces (ht.zero_le_result h)
  have hu0 := Rounding.exact_two.zero_le_toPlaces (hu.zero_le_result h)
  refine ⟨eq_of_value_eq (not_isNaN_of_zero_le ht0) (not_isNaN_of_zero_le hu0)
    ((htop ht).trans (htop hu).symm) ?_, (isInf_iff_value hu0).2 (htop hu)⟩
  rw [signOf_of_pos (htop ht ▸ EReal.zero_lt_top), signOf_of_pos (htop hu ▸ EReal.zero_lt_top)]

section Finite

variable (hfinite : ∀ d, (p.get d).isFinite)

include hfinite

omit hu in
lemma Adds.total_nonneg : 0 ≤ (p.map real).total :=
  ht.exact ▸ Summation.exact_nonneg (ht.zero_le_summands h) (ht.forall_summands _ rfl hfinite)

omit hu in
lemma Adds.scaled {m : ℕ} (hm : m + 8 < 1024) (hrange : (p.map real).total ≤ 2 ^ m) :
    (t.result * 100.0).isFinite ∧ 0 ≤ real (t.result * 100.0) ∧
      |real (t.result * 100.0) - 100 * (p.map real).total| ≤ slack (p.map real).total := by
  have hdepth := ht.depth
  have hestimates := Summation.estimates (ht.zero_le_summands h) (ht.forall_summands _ rfl hfinite)
    (k := m) (by omega) (ht.exact.trans_le hrange) (by omega)
  rw [ht.exact] at hestimates
  obtain ⟨hscaled, hclose⟩ := Rounding.scaled_of_estimates hestimates
    (ht.total_nonneg h hfinite) hdepth hm hrange
  have hnonneg := zero_le_mul_right (c := 100.0) (ht.zero_le_result h) rfl (by decide)
  exact ⟨hscaled, (le_iff_real rfl hscaled).1 hnonneg, hclose⟩

/-- **Orders agree after rounding** where the exact sum is clear of the boundaries. -/
theorem Adds.toPlaces_eq_of_clear (hne : ∃ d, p.get d ≠ -0.0)
    (hclear : ClearOfHalves (p.map real).total) : toPlaces t.result 2 = toPlaces u.result 2 := by
  have hrange : (p.map real).total ≤ 2 ^ 41 := by
    have := hclear.slack_lt
    rw [slack] at this
    norm_num at this ⊢
    linarith
  obtain ⟨htf, -, htclose⟩ := ht.scaled h hfinite (by norm_num) hrange
  obtain ⟨huf, -, huclose⟩ := hu.scaled h hfinite (by norm_num) hrange
  refine Rounding.toPlaces_two_congr (ht.noMinus_result h hne) (hu.noMinus_result h hne) htf huf ?_
  rw [Rounding.hundredths_of_clear hclear htclose, Rounding.hundredths_of_clear hclear huclose]

/-- **Orders are at most one hundredth apart**, as long as a slack is less than half of one. -/
theorem Adds.hundredths_neighbours (hrange : (p.map real).total ≤ 2 ^ 40) :
    |hundredths t.result - hundredths u.result| ≤ 1 := by
  obtain ⟨-, ht0, htclose⟩ := ht.scaled h hfinite (by norm_num) hrange
  obtain ⟨-, hu0, huclose⟩ := hu.scaled h hfinite (by norm_num) hrange
  have hslack : slack (p.map real).total < 1 / 2 := by
    rw [slack]
    norm_num at hrange ⊢
    linarith
  have hmoved := abs_sub_le (hundredths t.result : ℝ) (100 * (p.map real).total)
    (hundredths u.result)
  have htmoved := Rounding.abs_hundredths_sub_le ht0 htclose
  have humoved := Rounding.abs_hundredths_sub_le hu0 huclose
  rw [abs_sub_comm] at humoved
  have hlt : |((hundredths t.result - hundredths u.result : ℤ) : ℝ)| < 2 := by
    push_cast
    linarith
  have hint : |hundredths t.result - hundredths u.result| < 2 := by exact_mod_cast hlt
  omega

/-- **Orders are close after rounding.** -/
theorem Adds.abs_toPlaces_sub_le (hrange : (p.map real).total ≤ 2 ^ 1015) :
    |real (toPlaces t.result 2) - real (toPlaces u.result 2)| ≤
      1 / 100 + 2 ^ (-46 : ℤ) * (1 + (p.map real).total) := by
  have hs := ht.total_nonneg h hfinite
  obtain ⟨htf, ht0, htclose⟩ := ht.scaled h hfinite (by norm_num) hrange
  obtain ⟨huf, hu0, huclose⟩ := hu.scaled h hfinite (by norm_num) hrange
  have htmoved := Rounding.abs_toPlaces_sub_le hs htf ht0 htclose
  have humoved := Rounding.abs_toPlaces_sub_le hs huf hu0 huclose
  rw [abs_sub_comm] at humoved
  refine (abs_sub_le _ (p.map real).total _).trans ((add_le_add htmoved humoved).trans_eq ?_)
  rw [show (2 : ℝ) ^ (-46 : ℤ) = 2 * 2 ^ (-47 : ℤ) by norm_num]
  ring

end Finite

end

/-! ### The two orders -/

variable (p : PerDimension Float)

/-- From zero, in canonical order. -/
def fromZero : Summation :=
  Dimension.all.foldl (fun t d => t.add (.summand (p.get d))) (.summand 0.0)

/-- Part by part, with async last. -/
def byParts : Summation :=
  .add (.add (.add (.summand p.control) (.summand p.nesting))
    (.add (.summand p.state) (.summand p.coupling))) (.summand p.async)

lemma adds_fromZero : Adds (fromZero p) p := by
  have hsummands : (fromZero p).summands = 0.0 :: p.toList := rfl
  refine ⟨fun q h0 h => ?summands, fun d => ?mem, ?exact, le_rfl⟩
  case summands =>
    rw [hsummands, List.forall_mem_cons, PerDimension.toList, List.forall_mem_map]
    exact ⟨h0, fun d _ => h d⟩
  case mem =>
    rw [hsummands]
    exact List.mem_cons_of_mem _ (List.mem_map.2 ⟨d, Dimension.mem_all d, rfl⟩)
  case exact =>
    change (real 0.0 + (real p.control + (real p.nesting + (real p.state + (real p.async +
      (real p.coupling + 0))))) : ℝ) = real p.control + real p.nesting + real p.state +
        real p.async + real p.coupling
    rw [real_zero]
    ring

lemma adds_byParts : Adds (byParts p) p := by
  refine ⟨fun q _ h => ?summands, fun d => ?mem, ?exact, ?depth⟩
  case summands =>
    change ∀ x ∈ [p.control, p.nesting, p.state, p.coupling, p.async], q x
    simpa using ⟨h .control, h .nesting, h .state, h .coupling, h .async⟩
  case mem =>
    change p.get d ∈ [p.control, p.nesting, p.state, p.coupling, p.async]
    cases d <;> simp [PerDimension.get]
  case exact =>
    change (real p.control + (real p.nesting + (real p.state + (real p.coupling +
      (real p.async + 0)))) : ℝ) = real p.control + real p.nesting + real p.state +
        real p.async + real p.coupling
    ring
  case depth =>
    change 3 ≤ 5
    decide

end WeightedTotal

namespace Engine

open WeightedTotal

lemma Built.zero_le_product {e : Engine} (he : e.Built) {v : ComplexityVector}
    (hv : v.FiniteNonneg) (d : Dimension) : 0.0 ≤ (v.zipWith (· * ·) e.weights).get d := by
  rw [PerDimension.get_zipWith]
  exact CodeComplexity.zero_le_product hv he.weights_spec

/-- **The total of a decomposition and the linear part of a score**, for an engine that was built
and a vector that is finite and not below zero. Both are numbers, not below zero. They are the same
double if the products have an exact sum, or one that is clear of the boundaries between hundredths,
or if one of them is at least `1e307`, in which case both are infinite. But of products that are all
negative zeros the total is one too, and the linear part is not. Up to `2 ^ 40` both are the doubles
of the same or of neighbouring hundredths, and up to `2 ^ 1015` they are no farther apart than a
hundredth and a fixed part of the sum. -/
theorem total_near_linear (e : Engine) (he : e.Built) (v : ComplexityVector) (hv : v.FiniteNonneg)
    (t : ModuleType) :
    let p := v.zipWith (· * ·) e.weights
    let s := (p.map real).total
    let total := (e.decomposition v).total
    let linear := (e.score v t).linear
    (0.0 ≤ total ∧ 0.0 ≤ linear) ∧
    ((∀ d, p.get d = -0.0) → total = -0.0 ∧ linear = 0.0) ∧
    ((∃ d, p.get d ≠ -0.0) → HasExactSum p → total = linear) ∧
    ((∃ d, 1e307 ≤ p.get d) → total = linear ∧ linear.isInf) ∧
    ((∀ d, (p.get d).isFinite) →
      ((∃ d, p.get d ≠ -0.0) → Rounding.ClearOfHalves s → total = linear) ∧
      (s ≤ 2 ^ 40 → ∃ m n : ℤ, |m - n| ≤ 1 ∧ total.isFinite ∧ real total = nearest (m / 100) ∧
        linear.isFinite ∧ real linear = nearest (n / 100)) ∧
      (s ≤ 2 ^ 1015 → |real total - real linear| ≤ 1 / 100 + 2 ^ (-46 : ℤ) * (1 + s))) := by
  intro p s total linear
  have h : ∀ d, 0.0 ≤ p.get d := he.zero_le_product hv
  have htotal : total = Rounding.toPlaces (byParts p).result 2 := rfl
  have hlinear : linear = Rounding.toPlaces (fromZero p).result 2 := rfl
  have ht := adds_byParts p
  have hu := adds_fromZero p
  rw [htotal, hlinear]
  refine ⟨⟨?total, ?linear⟩, fun hzero => ⟨?totalZero, ?linearZero⟩, fun hne hexact => ?exact,
    ht.toPlaces_eq_of_large hu h, fun hfinite => ⟨ht.toPlaces_eq_of_clear hu h hfinite,
      fun hrange => ?near, ht.abs_toPlaces_sub_le hu h hfinite⟩⟩
  case total => exact Rounding.exact_two.zero_le_toPlaces (ht.zero_le_result h)
  case linear => exact Rounding.exact_two.zero_le_toPlaces (hu.zero_le_result h)
  case totalZero =>
    have hresult : (byParts p).result = p.get .control + p.get .nesting +
        (p.get .state + p.get .coupling) + p.get .async := rfl
    simp only [hresult, hzero, Rounding.toPlaces, Rounding.powerOfTen_two]
    decide
  case linearZero =>
    have hresult : (fromZero p).result = 0.0 + p.get .control + p.get .nesting + p.get .state +
        p.get .async + p.get .coupling := rfl
    simp only [hresult, hzero, Rounding.toPlaces, Rounding.powerOfTen_two]
    decide
  case exact => rw [ht.result_eq_of_exact hu h hne hexact]
  case near =>
    obtain ⟨htfinite, htreal⟩ :=
      Rounding.real_toPlaces_two (ht.scaled h hfinite (by norm_num) hrange).1
    obtain ⟨hufinite, hureal⟩ :=
      Rounding.real_toPlaces_two (hu.scaled h hfinite (by norm_num) hrange).1
    exact ⟨_, _, ht.hundredths_neighbours hu h hfinite hrange, htfinite, htreal, hufinite, hureal⟩

/-- So it is for a vector whose products are halves: they need no rounding. -/
theorem total_eq_linear : (shipped.decomposition ⟨5.0, 3.0, 2.0, 1.0, 1.0⟩).total =
    (shipped.score ⟨5.0, 3.0, 2.0, 1.0, 1.0⟩ .api).linear := by
  have hproducts : PerDimension.zipWith (· * ·) (⟨5.0, 3.0, 2.0, 1.0, 1.0⟩ : ComplexityVector)
      shipped.weights = ⟨5.0, 4.5, 4.0, 2.5, 3.0⟩ := by decide +kernel
  have h := (total_near_linear shipped (.inl rfl) ⟨5.0, 3.0, 2.0, 1.0, 1.0⟩
    (fun d => by cases d <;> decide) .api).2.2.1
  rw [hproducts] at h
  have hcontrol : Multiple (-1) 10 5.0 := multiple_of_unpacked (k := 49) rfl
  have hnesting : Multiple (-1) 9 4.5 := multiple_of_unpacked (k := 49) rfl
  have hstate : Multiple (-1) 8 4.0 := multiple_of_unpacked (k := 49) rfl
  have hasync : Multiple (-1) 5 2.5 := multiple_of_unpacked (k := 50) rfl
  have hcoupling : Multiple (-1) 6 3.0 := multiple_of_unpacked (k := 50) rfl
  refine h ⟨.control, by decide⟩ ⟨-1, by norm_num, by norm_num, fun d => ?multiple, ?range⟩
  case multiple =>
    cases d
    exacts [⟨_, hcontrol⟩, ⟨_, hnesting⟩, ⟨_, hstate⟩, ⟨_, hasync⟩, ⟨_, hcoupling⟩]
  case range =>
    change real 5.0 + real 4.5 + real 4.0 + real 2.5 + real 3.0 < _
    rw [hcontrol.eq, hnesting.eq, hstate.eq, hasync.eq, hcoupling.eq]
    norm_num

/-- **But they are not always the same.** The exact sum of these products lies next to 1.455,
and the two orders fall on different sides of it. -/
theorem total_ne_linear : ¬∀ e : Engine, e.Built → ∀ v : ComplexityVector, v.FiniteNonneg →
    ∀ t, (e.decomposition v).total = (e.score v t).linear := fun h => by
  have hequal := h shipped (.inl rfl) ⟨0.0, 0.07, 0.1, 0.1, 0.3⟩
    (fun d => by cases d <;> decide) .api
  have htotal : (shipped.decomposition ⟨0.0, 0.07, 0.1, 0.1, 0.3⟩).total = 1.45 := by
    simp only [decomposition, Decomposition.ofVector, Rounding.toPlaces, Rounding.powerOfTen_two]
    decide +kernel
  have hlinear : (shipped.score ⟨0.0, 0.07, 0.1, 0.1, 0.3⟩ .api).linear = 1.46 := by
    simp only [score, Scorer.score, Rounding.toPlaces, Rounding.powerOfTen_two]
    decide +kernel
  rw [htotal, hlinear] at hequal
  revert hequal
  decide

end Engine

end CodeComplexity
