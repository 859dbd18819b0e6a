import Mathlib.Algebra.BigOperators.Ring.Finset
import Mathlib.Algebra.Order.BigOperators.Group.Finset
import Mathlib.Algebra.Order.Field.Rat
import Mathlib.Data.Fintype.Prod
import Mathlib.Data.Sign.Basic
import Mathlib.Tactic.Linarith
import Mathlib.Tactic.Positivity
import Mathlib.Tactic.Ring
import CodeComplexity.Score

/-!
What the check of a matrix for dominance is good for.

Read over the rationals, the quadratic form of a symmetric matrix is a sum of squares: each
component's, weighted by what its row has on the diagonal beyond the magnitudes of the rest, and for
two dimensions that of the sum or the difference of their components, by the sign of their entry,
weighted by its magnitude. The check says that the first weights are not below zero; the others
never are.
-/

namespace CodeComplexity

open Finset

instance : Fintype Dimension where
  elems := ⟨Dimension.all, Dimension.nodup_all⟩
  complete := Dimension.mem_all

/-- A list without repetitions is added up as a set. -/
lemma foldl_add_eq_finset_sum {ι : Type} [DecidableEq ι] {l : List ι} (hl : l.Nodup) (f : ι → ℚ) :
    l.foldl (fun s i => s + f i) 0 = ∑ i ∈ l.toFinset, f i := by
  rw [List.sum_toFinset f hl, List.sum_eq_foldl, List.foldl_map]

namespace InteractionMatrix

/-! ### Forms as sums -/

variable {m : InteractionMatrix ℚ} {v : PerDimension ℚ} {i j : Dimension}

lemma nodup_places : places.Nodup := by decide

lemma quadraticForm_eq_sum (m : InteractionMatrix ℚ) (v : PerDimension ℚ) :
    m.quadraticForm v = ∑ i, ∑ j, v.get i * m.entry i j * v.get j := by
  have hall : places.toFinset = univ := eq_univ_of_forall fun p => by simp
  rw [quadraticForm, foldl_add_eq_finset_sum nodup_places, hall, Fintype.sum_prod_type]

/-- The magnitude of an entry that couples two different dimensions. -/
def crossWeight (m : InteractionMatrix ℚ) (i j : Dimension) : ℚ :=
  if i = j then 0 else |m.entry i j|

/-- What a diagonal entry has beyond the magnitudes in the rest of its row. -/
def slack (m : InteractionMatrix ℚ) (i : Dimension) : ℚ := m.entry i i - m.offDiagonalSum abs i

lemma crossWeight_nonneg : 0 ≤ m.crossWeight i j := by
  unfold crossWeight
  split_ifs
  exacts [le_rfl, abs_nonneg _]

lemma offDiagonalSum_eq (m : InteractionMatrix ℚ) (i : Dimension) :
    m.offDiagonalSum abs i = ∑ j, m.crossWeight i j := by
  have hrest : (Dimension.all.filter (· ≠ i)).toFinset = ({j | i ≠ j} : Finset Dimension) := by
    ext j
    simp [ne_comm]
  rw [offDiagonalSum, foldl_add_eq_finset_sum (Dimension.nodup_all.filter _), hrest, sum_filter]
  exact sum_congr rfl fun j _ => ite_not ..

lemma slack_nonneg_iff : (∀ i, 0 ≤ m.slack i) ↔ m.isDominant abs = true := by
  simp [isDominant, slack]

/-- Comparing half of the places is enough. -/
lemma entry_comm (h : m.isSymmetric = true) (i j : Dimension) : m.entry i j = m.entry j i := by
  have hupper : ∀ i j, i.index < j.index → m.entry i j = m.entry j i := by
    simpa [isSymmetric, asymmetry] using h
  rcases lt_trichotomy i.index j.index with hlt | heq | hgt
  · exact hupper i j hlt
  · rw [Dimension.index_injective heq]
  · exact (hupper j i hgt).symm

lemma crossWeight_comm (h : m.isSymmetric = true) (i j : Dimension) :
    m.crossWeight i j = m.crossWeight j i := by
  simp only [crossWeight, eq_comm (a := i), entry_comm h i j]

/-! ### The form as a sum of squares -/

/-- A term off the diagonal completes a square. -/
lemma mul_mul_eq_sq (x y a : ℚ) :
    2 * (x * a * y) = |a| * (x + SignType.sign a * y) ^ 2 - |a| * x ^ 2 - |a| * y ^ 2 := by
  rcases lt_trichotomy a 0 with h | rfl | h
  · rw [abs_of_neg h, sign_neg h, SignType.coe_neg_one]
    ring
  · simp
  · rw [abs_of_pos h, sign_pos h, SignType.coe_one]
    ring

/-- The square that a term of the form completes. -/
def mixedSquare (m : InteractionMatrix ℚ) (v : PerDimension ℚ) (i j : Dimension) : ℚ :=
  m.crossWeight i j * (v.get i + SignType.sign (m.entry i j) * v.get j) ^ 2

lemma mixedSquare_nonneg : 0 ≤ m.mixedSquare v i j := mul_nonneg crossWeight_nonneg (sq_nonneg _)

lemma term_eq (m : InteractionMatrix ℚ) (v : PerDimension ℚ) (i j : Dimension) :
    2 * (v.get i * m.entry i j * v.get j) = (if i = j then 2 * (m.entry i i * v.get i ^ 2) else 0) +
      m.mixedSquare v i j - m.crossWeight i j * v.get i ^ 2 - m.crossWeight i j * v.get j ^ 2 := by
  unfold mixedSquare crossWeight
  split_ifs with h
  · subst h
    ring
  · rw [mul_mul_eq_sq]
    ring

/-- **The form is a sum of squares.** Every pair of dimensions is counted twice. -/
theorem quadraticForm_eq_squares (h : m.isSymmetric = true) :
    m.quadraticForm v =
      ∑ i, m.slack i * v.get i ^ 2 + (∑ i, ∑ j, m.mixedSquare v i j) / 2 := by
  have hrows : ∑ i, ∑ j, m.crossWeight i j * v.get i ^ 2 =
      ∑ i, m.offDiagonalSum abs i * v.get i ^ 2 := by
    simp only [offDiagonalSum_eq, sum_mul]
  have hcolumns : ∑ i, ∑ j, m.crossWeight i j * v.get j ^ 2 =
      ∑ i, ∑ j, m.crossWeight i j * v.get i ^ 2 := by
    rw [sum_comm]
    simp only [crossWeight_comm h]
  have hslack : ∑ i, m.slack i * v.get i ^ 2 = ∑ i, m.entry i i * v.get i ^ 2 -
      ∑ i, m.offDiagonalSum abs i * v.get i ^ 2 := by
    simp only [slack, sub_mul, sum_sub_distrib]
  have htwice : 2 * m.quadraticForm v = 2 * ∑ i, m.entry i i * v.get i ^ 2 +
      ∑ i, ∑ j, m.mixedSquare v i j - ∑ i, ∑ j, m.crossWeight i j * v.get i ^ 2 -
      ∑ i, ∑ j, m.crossWeight i j * v.get j ^ 2 := by
    simp only [quadraticForm_eq_sum, mul_sum, term_eq, sum_sub_distrib, sum_add_distrib,
      Finset.sum_ite_eq, mem_univ, if_true]
  rw [hcolumns, hrows] at htwice
  linarith

lemma sum_slack_le (h : m.isSymmetric = true) :
    ∑ i, m.slack i * v.get i ^ 2 ≤ m.quadraticForm v := by
  have hmixed : 0 ≤ ∑ i, ∑ j, m.mixedSquare v i j :=
    sum_nonneg fun i _ => sum_nonneg fun j _ => mixedSquare_nonneg
  rw [quadraticForm_eq_squares h]
  linarith

lemma quadraticForm_nonneg (h : m.isSymmetric = true) (hd : m.isDominant abs = true)
    (v : PerDimension ℚ) : 0 ≤ m.quadraticForm v :=
  (sum_nonneg fun i _ => mul_nonneg (slack_nonneg_iff.2 hd i) (sq_nonneg _)).trans (sum_slack_le h)

lemma quadraticForm_pos (h : m.isSymmetric = true)
    (hstrict : ∀ i, m.offDiagonalSum abs i < m.entry i i) (hv : v ≠ .const 0) :
    0 < m.quadraticForm v := by
  obtain ⟨i, hi⟩ : ∃ i, v.get i ≠ 0 := by
    by_contra hzero
    push Not at hzero
    exact hv (PerDimension.ext_get fun d => by rw [hzero d, PerDimension.get_const])
  have hslack (i : Dimension) : 0 < m.slack i := sub_pos.2 (hstrict i)
  refine lt_of_lt_of_le ?_ (sum_slack_le h)
  exact sum_pos' (fun j _ => mul_nonneg (hslack j).le (sq_nonneg _))
    ⟨i, mem_univ i, mul_pos (hslack i) (sq_pos_of_ne_zero hi)⟩

/-- **A dominant matrix has no negative form.** Over the rationals, the form of a symmetric matrix
that passes the check is nowhere below zero, and above it at every vector but zero if each diagonal
entry exceeds the rest of its row. So under such a matrix taking the magnitude changes no distance,
and interactions lower no score. Distances and scores are made of the same two functions, read over
the doubles: the one before the root is taken, the other scaled by a tenth. -/
theorem dominance_sound (m : InteractionMatrix ℚ) (h : m.isSymmetric = true)
    (hd : m.isDominant abs = true) :
    (∀ v, 0 ≤ m.quadraticForm v) ∧
    ((∀ i, m.offDiagonalSum abs i < m.entry i i) → ∀ v, v ≠ .const 0 → 0 < m.quadraticForm v) ∧
    (∀ v w, m.squaredDistance abs v w = m.quadraticForm (v - w)) ∧
    (∀ scale, 0 ≤ scale → ∀ v, 0 ≤ m.interactionPart scale v) ∧
    (∀ (n : InteractionMatrix Float) (v w : ComplexityVector),
      v.interactionDistance w n = (n.squaredDistance Float.abs v w).sqrt) ∧
    ∀ (s : Scorer) (v : ComplexityVector) (t : ModuleType),
      s.quadratic v t = (s.registry.matrix t).interactionPart 0.1 v := by
  have hnonneg := quadraticForm_nonneg h hd
  exact ⟨hnonneg, fun hstrict v hv => quadraticForm_pos h hstrict hv,
    fun v w => abs_of_nonneg (hnonneg _), fun scale hscale v => mul_nonneg (hnonneg v) hscale,
    fun n v w => rfl, fun s v t => rfl⟩

/-- Where every dimension holds the others down: with the diagonal above the rest of its row, and
with the diagonal no more than that, which leaves the form zero at a vector that is not. -/
theorem dominance_sound_repelling :
    (let m : InteractionMatrix ℚ := ofFn fun i j => if i = j then 5 else -1
     m.isSymmetric = true ∧ m.isDominant abs = true ∧
       (∀ i, m.offDiagonalSum abs i < m.entry i i) ∧ 0 < m.quadraticForm (.const 1) ∧
       m.squaredDistance abs (.const 1) (.const 3) = m.quadraticForm (.const 1 - .const 3) ∧
       0 ≤ m.interactionPart (1 / 10) (.const 1)) ∧
    let m : InteractionMatrix ℚ := ofFn fun i j => if i = j then 4 else -1
    m.isSymmetric = true ∧ m.isDominant abs = true ∧ 0 ≤ m.quadraticForm ⟨3, -1, 2, 0, 7⟩ ∧
      m.quadraticForm (.const 1) = 0 := by
  refine ⟨?strict, ?weak⟩
  case strict =>
    intro m
    have h : m.isSymmetric = true := by decide +kernel
    have hd : m.isDominant abs = true := by decide +kernel
    have hstrict : ∀ i, m.offDiagonalSum abs i < m.entry i i := by decide +kernel
    obtain ⟨-, hpos, habs, hpart, -⟩ := dominance_sound m h hd
    exact ⟨h, hd, hstrict, hpos hstrict _ (by decide), habs _ _, hpart _ (by norm_num) _⟩
  case weak =>
    intro m
    have h : m.isSymmetric = true := by decide +kernel
    have hd : m.isDominant abs = true := by decide +kernel
    exact ⟨h, hd, (dominance_sound m h hd).1 _, by decide +kernel⟩

end InteractionMatrix

end CodeComplexity
