import Mathlib.Algebra.BigOperators.Fin
import Mathlib.Algebra.Order.Chebyshev
import Mathlib.Tactic.FieldSimp
import Mathlib.Tactic.Linarith
import CodeComplexity.History

/-!
The slope of a history is that of the best line.

The trend is given in any number type; here it is read over the rationals, where nothing is rounded.
The squared distances of values from a line split into a part that no line can change, one for the
mean and one for the slope, which is all that optimality and uniqueness need. The positions are
fixed by their number, so their variance has a closed form.
-/

namespace CodeComplexity.LeastSquares

open Finset

/-- The sum of the squared distances of values from a line over their positions. -/
def squares (ys : List ℚ) (a b : ℚ) : ℚ := (ys.zipIdx.map fun p => (p.1 - a - b * p.2) ^ 2).sum

/-- How far a position lies from the middle. -/
def placeOffset {n : ℕ} (i : Fin n) : ℚ := i - (n - 1 : ℕ) / 2

/-- How far a value lies from the mean. -/
def valueOffset (ys : List ℚ) (i : Fin ys.length) : ℚ := ys[i] - ys.sum / ys.length

variable {ys : List ℚ} {n : ℕ}

/-! ### Lists as families -/

lemma zipIdx_eq_ofFn {α : Type} (l : List α) : l.zipIdx = List.ofFn fun i => (l[i], (i : ℕ)) := by
  refine List.ext_getElem (by simp) fun i h h' => ?_
  simp

lemma foldl_add_eq_sum {ι : Type} (l : List ι) (f : ι → ℚ) :
    l.foldl (fun s i => s + f i) 0 = (l.map f).sum := by
  rw [List.sum_eq_foldl, List.foldl_map]

lemma offsets_eq (ys : List ℚ) :
    offsets Nat.cast ys = List.ofFn fun i => (placeOffset i, valueOffset ys i) := by
  have hsum : ys.foldl (· + ·) ((0 : ℕ) : ℚ) = ys.sum := by
    rw [Nat.cast_zero, List.sum_eq_foldl]
  simp only [offsets, zipIdx_eq_ofFn, List.map_ofFn, hsum]
  rfl

lemma covariance_eq (ys : List ℚ) :
    covariance Nat.cast ys = ∑ i, placeOffset i * valueOffset ys i := by
  rw [covariance, offsets_eq, Nat.cast_zero, foldl_add_eq_sum, List.map_ofFn, List.sum_ofFn]
  rfl

lemma variance_eq (ys : List ℚ) :
    variance Nat.cast ys = ∑ i : Fin ys.length, placeOffset i ^ 2 := by
  rw [variance, offsets_eq, Nat.cast_zero, foldl_add_eq_sum, List.map_ofFn, List.sum_ofFn]
  simp only [Function.comp_apply, sq]

lemma squares_eq (ys : List ℚ) (a b : ℚ) :
    squares ys a b = ∑ i : Fin ys.length, (ys[i] - a - b * (i : ℕ)) ^ 2 := by
  rw [squares, zipIdx_eq_ofFn, List.map_ofFn, List.sum_ofFn]
  rfl

/-! ### Offsets -/

/-- Sums of the first and second powers of positions, wherever they are measured from. -/
lemma sum_range_sub (c : ℚ) (n : ℕ) :
    ∑ i ∈ range n, ((i : ℚ) - c) = n * (n - 1) / 2 - n * c ∧
    ∑ i ∈ range n, ((i : ℚ) - c) ^ 2 =
      n * (n - 1) * (2 * n - 1) / 6 - c * n * (n - 1) + n * c ^ 2 := by
  induction n with
  | zero => simp
  | succ n ih =>
    rw [sum_range_succ, sum_range_succ, ih.1, ih.2]
    push_cast
    constructor <;> ring

lemma sum_placeOffset (hn : 0 < n) : ∑ i : Fin n, placeOffset i = 0 := by
  have h := (sum_range_sub ((n - 1 : ℕ) / 2) n).1
  rw [← Fin.sum_univ_eq_sum_range (fun i => (i : ℚ) - (n - 1 : ℕ) / 2)] at h
  rw [Nat.cast_pred hn] at h
  simp only [placeOffset, Nat.cast_pred hn, h]
  ring

/-- **The variance of the positions** is a polynomial in their number. -/
lemma variance_eq_length (h : 0 < ys.length) :
    variance Nat.cast ys = ys.length * ((ys.length : ℚ) ^ 2 - 1) / 12 := by
  have hsum := (sum_range_sub ((ys.length - 1 : ℕ) / 2) ys.length).2
  rw [← Fin.sum_univ_eq_sum_range (fun i => ((i : ℚ) - (ys.length - 1 : ℕ) / 2) ^ 2),
    Nat.cast_pred h] at hsum
  simp only [variance_eq, placeOffset, Nat.cast_pred h, hsum]
  ring

lemma variance_pos (h : 2 ≤ ys.length) : 0 < variance Nat.cast ys := by
  have h' : (2 : ℚ) ≤ ys.length := by exact_mod_cast h
  rw [variance_eq_length (by omega)]
  have : (0 : ℚ) < (ys.length : ℚ) ^ 2 - 1 := by nlinarith
  positivity

lemma sum_valueOffset (h : 0 < ys.length) : ∑ i, valueOffset ys i = 0 := by
  have hlength : (ys.length : ℚ) ≠ 0 := by positivity
  simp only [valueOffset]
  rw [sum_sub_distrib, sum_const, card_univ, Fintype.card_fin, nsmul_eq_mul,
    mul_div_cancel₀ _ hlength]
  exact sub_eq_zero.2 (Fin.sum_univ_getElem ys)

/-! ### The best line -/

/-- The line of a slope that goes through the means. -/
def intercept (ys : List ℚ) (b : ℚ) : ℚ := ys.sum / ys.length - b * (ys.length - 1) / 2

/-- **The squares of a line split**: into those of the line whose slope is that of the covariance,
those by which the slope is off, and those by which the line passes the means. -/
theorem squares_eq_add (h : 0 < ys.length) {s : ℚ}
    (hs : s * variance Nat.cast ys = covariance Nat.cast ys) (a b : ℚ) :
    squares ys a b = squares ys (intercept ys s) s + (b - s) ^ 2 * variance Nat.cast ys +
      ys.length * (intercept ys b - a) ^ 2 := by
  have hsplit (a b : ℚ) : squares ys a b = ∑ i, valueOffset ys i ^ 2 -
      2 * b * covariance Nat.cast ys + b ^ 2 * variance Nat.cast ys +
      ys.length * (intercept ys b - a) ^ 2 := by
    have hterm (i : Fin ys.length) : (ys[i] - a - b * (i : ℕ)) ^ 2 =
        valueOffset ys i ^ 2 - 2 * b * (placeOffset i * valueOffset ys i) +
          b ^ 2 * placeOffset i ^ 2 + (intercept ys b - a) ^ 2 +
          2 * (intercept ys b - a) * (valueOffset ys i - b * placeOffset i) := by
      simp only [valueOffset, placeOffset, intercept, Nat.cast_pred h]
      ring
    rw [squares_eq, sum_congr rfl fun i _ => hterm i]
    simp only [sum_add_distrib, sum_sub_distrib, ← mul_sum, sum_const, card_univ, Fintype.card_fin,
      nsmul_eq_mul, sum_placeOffset h, sum_valueOffset h, covariance_eq, variance_eq]
    ring
  rw [hsplit a b, hsplit (intercept ys s) s, ← hs]
  ring

/-! ### Other values -/

lemma offsets_map_add (h : 0 < ys.length) (c : ℚ) :
    offsets Nat.cast (ys.map (· + c)) = offsets Nat.cast ys := by
  have hlength : (ys.length : ℚ) ≠ 0 := by positivity
  have hmean : (ys.map (· + c)).foldl (· + ·) ((0 : ℕ) : ℚ) / ys.length =
      ys.foldl (· + ·) ((0 : ℕ) : ℚ) / ys.length + c := by
    rw [Nat.cast_zero, ← List.sum_eq_foldl, ← List.sum_eq_foldl, List.sum_map_add, List.map_id',
      List.map_const', List.sum_replicate, nsmul_eq_mul]
    field_simp
  simp only [offsets, List.length_map, hmean, List.zipIdx_map, List.map_map]
  refine List.map_congr_left fun p _ => ?_
  simp

/-- Backwards each position lies as far on the other side of the middle. -/
lemma covariance_reverse (ys : List ℚ) :
    covariance Nat.cast ys.reverse = -covariance Nat.cast ys := by
  let e : Fin ys.length ≃ Fin ys.reverse.length :=
    Fin.revPerm.trans (finCongr List.length_reverse.symm)
  have he (i : Fin ys.length) : (e i : ℕ) = ys.length - (i + 1) := Fin.val_rev i
  rw [covariance_eq, covariance_eq, ← sum_neg_distrib]
  refine (Fintype.sum_equiv e _ _ fun i => ?_).symm
  have hvalue : valueOffset ys.reverse (e i) = valueOffset ys i := by
    have hget : ys.reverse[e i] = ys[i] := by
      simp only [Fin.getElem_fin, he, List.getElem_reverse]
      congr 1
      omega
    rw [valueOffset, valueOffset, hget, List.sum_reverse, List.length_reverse]
  have hplace : placeOffset (e i) = -placeOffset i := by
    rw [placeOffset, placeOffset, he, List.length_reverse, Nat.cast_sub i.2,
      Nat.cast_pred (Nat.zero_lt_of_lt i.2)]
    push_cast
    ring
  rw [hvalue, hplace, neg_mul]

/-- **Rising values** vary with their positions. -/
lemma covariance_nonneg (h : ys.IsChain (· ≤ ·)) : 0 ≤ covariance Nat.cast ys := by
  rcases Nat.eq_zero_or_pos ys.length with hzero | hpos
  · rw [List.length_eq_zero_iff.1 hzero]
    rfl
  have hplaces : Monotone (placeOffset (n := ys.length)) := fun i j hij => by
    have : (i : ℚ) ≤ j := by exact_mod_cast hij
    simpa [placeOffset] using this
  have hvalues : Monotone (valueOffset ys) := fun i j hij => by
    rcases hij.eq_or_lt with rfl | hlt
    · rfl
    · exact sub_le_sub_right (List.pairwise_iff_getElem.1 h.pairwise i j i.2 j.2 hlt) _
  have hsum := (hplaces.monovary hvalues).sum_mul_sum_le_card_mul_sum
  rw [sum_placeOffset hpos, zero_mul, ← covariance_eq] at hsum
  exact nonneg_of_mul_nonneg_right hsum (by simpa using hpos)

/-! ### The slope -/

lemma leastSquaresSlope_eq (h : 2 ≤ ys.length) :
    leastSquaresSlope Nat.cast ys = covariance Nat.cast ys / variance Nat.cast ys := by
  have hguard : ¬(variance Nat.cast ys == ((0 : ℕ) : ℚ)) = true := by
    rw [Nat.cast_zero, beq_iff_eq]
    exact (variance_pos h).ne'
  simp only [leastSquaresSlope, if_neg (not_lt.2 h), if_neg hguard]

/-- **The slope is that of the best line.** The trend of a history is this slope, with its scores
read as doubles. For two values or more, the variance it is divided by depends on their number alone
and is not zero. The line through the means with this slope has the least squares of all lines, and
every line that has as few has this slope. The slope does not change if all values are raised by the
same amount, changes its sign if they are taken backwards, and is not below zero if they never
fall. -/
theorem leastSquaresSlope_optimal (ys : List ℚ) (h : 2 ≤ ys.length) :
    (∀ history : History, history.trend = leastSquaresSlope Float.ofNat history.scores) ∧
    (variance Nat.cast ys = ys.length * ((ys.length : ℚ) ^ 2 - 1) / 12 ∧
      0 < variance Nat.cast ys ∧
      leastSquaresSlope Nat.cast ys = covariance Nat.cast ys / variance Nat.cast ys) ∧
    let b := leastSquaresSlope Nat.cast ys
    let a := ys.sum / ys.length - b * (ys.length - 1) / 2
    (∀ a' b', squares ys a b ≤ squares ys a' b') ∧
    (∀ a' b', (∀ a'' b'', squares ys a' b' ≤ squares ys a'' b'') → b' = b) ∧
    (∀ c, leastSquaresSlope Nat.cast (ys.map (· + c)) = b) ∧
    leastSquaresSlope Nat.cast ys.reverse = -b ∧
    (ys.IsChain (· ≤ ·) → 0 ≤ b) := by
  have hpos : 0 < ys.length := by omega
  have hvariance := variance_pos h
  have hslope := leastSquaresSlope_eq h
  refine ⟨fun history => rfl, ⟨variance_eq_length hpos, hvariance, hslope⟩, ?_⟩
  intro b a
  have hb : b = covariance Nat.cast ys / variance Nat.cast ys := hslope
  have hsplit := squares_eq_add hpos ((eq_div_iff hvariance.ne').1 hb)
  refine ⟨fun a' b' => ?least, fun a' b' hbest => ?unique, fun c => ?raised, ?backwards,
    fun hchain => ?rising⟩
  case least =>
    rw [hsplit a' b']
    change squares ys (intercept ys b) b ≤ _
    have := mul_nonneg (sq_nonneg (b' - b)) hvariance.le
    have := mul_nonneg (ys.length.cast_nonneg (α := ℚ)) (sq_nonneg (intercept ys b' - a'))
    linarith
  case unique =>
    have hle := hbest (intercept ys b) b
    rw [hsplit a' b'] at hle
    have := mul_nonneg (ys.length.cast_nonneg (α := ℚ)) (sq_nonneg (intercept ys b' - a'))
    have hzero : (b' - b) ^ 2 * variance Nat.cast ys ≤ 0 := by linarith
    have hsq := nonpos_of_mul_nonpos_left hzero hvariance
    exact sub_eq_zero.1 (pow_eq_zero_iff two_ne_zero |>.1 (le_antisymm hsq (sq_nonneg _)))
  case raised =>
    rw [leastSquaresSlope_eq (by simpa using h), hb]
    simp only [covariance, variance, offsets_map_add hpos]
  case backwards =>
    have hreverse : variance Nat.cast ys.reverse = variance Nat.cast ys := by
      rw [variance_eq_length (by simpa using hpos), variance_eq_length hpos, List.length_reverse]
    rw [leastSquaresSlope_eq (by simpa using h), covariance_reverse, hreverse, neg_div, hb]
  case rising =>
    rw [hb]
    exact div_nonneg (covariance_nonneg hchain) hvariance.le

/-- Two equal values and a greater third one, as rationals and as the scores of a history. -/
theorem leastSquaresSlope_three :
    2 ≤ [1, 1, (4 : ℚ)].length ∧ [1, 1, (4 : ℚ)].IsChain (· ≤ ·) ∧
    leastSquaresSlope Nat.cast [1, 1, (4 : ℚ)] = 3 / 2 ∧
    (∀ a b, squares [1, 1, 4] (1 / 2) (3 / 2) ≤ squares [1, 1, 4] a b) ∧
    0 ≤ leastSquaresSlope Nat.cast [1, 1, (4 : ℚ)] ∧
    History.trend ⟨[1.0, 1.0, 4.0], History.defaultLimit⟩ = 1.5 := by
  have hchain : [1, 1, (4 : ℚ)].IsChain (· ≤ ·) := by decide +kernel
  have hslope : leastSquaresSlope Nat.cast [1, 1, (4 : ℚ)] = 3 / 2 := by decide +kernel
  obtain ⟨htrend, -, hleast, -, -, -, hrising⟩ :=
    leastSquaresSlope_optimal [1, 1, (4 : ℚ)] (by decide)
  have hscores : leastSquaresSlope Float.ofNat [1.0, 1.0, 4.0] = 1.5 := by decide +kernel
  refine ⟨by decide, hchain, hslope, fun a b => ?_, hrising hchain, (htrend _).trans hscores⟩
  have hline := hleast a b
  rw [hslope] at hline
  norm_num at hline ⊢
  exact hline

end CodeComplexity.LeastSquares
