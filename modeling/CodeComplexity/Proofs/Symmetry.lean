import CodeComplexity.Convergence
import CodeComplexity.Proofs.Double.Alike

/-!
Distances and slopes in both directions.

The difference of two vectors, taken the other way, is the opposite one but for the signs of its
zeros. A sum of squares and a quadratic form run over products in which two minus signs cancel, so
term by term the two runs hold what is alike. A root of a sum of squares, and one of a magnitude, do
not see the sign of a zero either. So nothing depends on which vector comes first, whatever the
components are and whether or not the matrix is symmetric.
-/

namespace CodeComplexity

open Double

/-! ### Sums of products -/

namespace ComplexityVector

variable {v v' w w' : ComplexityVector}

def opposite (v : ComplexityVector) : ComplexityVector := v.map (- ·)

lemma get_opposite (v : ComplexityVector) (d : Dimension) : v.opposite.get d = -v.get d :=
  PerDimension.get_map ..

lemma dot_swap (v w : ComplexityVector) : v.dot w = w.dot v := by
  refine congrArg PerDimension.sum (PerDimension.ext_get fun d => ?_)
  rw [PerDimension.get_zipWith, PerDimension.get_zipWith, mul_swap]

lemma normSq_opposite (v : ComplexityVector) : v.opposite.normSq = v.normSq := by
  simp only [PerDimension.normSq, PerDimension.dot, PerDimension.sum, PerDimension.get_zipWith,
    get_opposite, opposite_mul_opposite]

lemma quadraticForm_opposite (m : InteractionMatrix Float) (v : ComplexityVector) :
    m.quadraticForm v.opposite = m.quadraticForm v := by
  have hterm (a b c : Float) : -a * b * -c = a * b * c := by
    rw [opposite_mul, opposite_mul_opposite]
  simp only [InteractionMatrix.quadraticForm, get_opposite, hterm]

lemma alike_normSq (h : ∀ d, Alike (v.get d) (w.get d)) : Alike v.normSq w.normSq := by
  simp only [PerDimension.normSq, PerDimension.dot, PerDimension.sum, PerDimension.get_zipWith]
  exact List.foldl_rel (r := Alike) (.refl _) fun d _ _ _ hs => hs.add ((h d).mul (h d))

lemma alike_quadraticForm (m : InteractionMatrix Float) (h : ∀ d, Alike (v.get d) (w.get d)) :
    Alike (m.quadraticForm v) (m.quadraticForm w) :=
  List.foldl_rel (r := Alike) (.refl _) fun p _ _ _ hs =>
    hs.add (((h p.1).mul (.refl _)).mul (h p.2))

lemma noMinus_normSq (v : ComplexityVector) : NoMinus v.normSq := by
  simp only [PerDimension.normSq, PerDimension.dot, PerDimension.sum, PerDimension.get_zipWith]
  exact List.foldlRecOn (motive := NoMinus) _ _ noMinus_zero fun _ hs d _ =>
    hs.add (noMinus_mul_self (v.get d))

/-! ### Distances -/

lemma alike_get_sub_swap (v w : ComplexityVector) (d : Dimension) :
    Alike ((w - v).get d) ((v - w).opposite.get d) := by
  rw [get_opposite, PerDimension.get_sub, PerDimension.get_sub]
  exact alike_sub_swap _ _

lemma euclideanDistance_swap (v w : ComplexityVector) :
    v.euclideanDistance w = w.euclideanDistance v := by
  -- the squares of the differences are alike, those of their opposites the same
  have halike := alike_normSq (alike_get_sub_swap v w)
  rw [normSq_opposite] at halike
  exact congrArg Float.sqrt (halike.eq (noMinus_normSq _) (noMinus_normSq _)).symm

lemma interactionDistance_swap (v w : ComplexityVector) (m : InteractionMatrix Float) :
    v.interactionDistance w m = w.interactionDistance v m := by
  have halike := alike_quadraticForm m (alike_get_sub_swap v w)
  rw [quadraticForm_opposite] at halike
  exact congrArg Float.sqrt halike.abs_eq.symm

lemma noMinus_euclideanDistance (v w : ComplexityVector) : NoMinus (v.euclideanDistance w) :=
  (noMinus_normSq _).sqrt

lemma noMinus_interactionDistance (v w : ComplexityVector) (m : InteractionMatrix Float) :
    NoMinus (v.interactionDistance w m) :=
  (noMinus_abs _).sqrt

lemma euclideanDistance_self (hv : ∀ d, (v.get d).isFinite) : v.euclideanDistance v = 0.0 := by
  have halike : Alike (v - v).normSq zero.normSq := alike_normSq fun d => by
    rw [PerDimension.get_sub, zero, PerDimension.get_const]
    exact alike_sub_self (hv d)
  rw [euclideanDistance, norm, halike.eq (noMinus_normSq _) (noMinus_normSq _)]
  decide

end ComplexityVector

/-! ### Slopes -/

namespace Convergence

open ComplexityVector

lemma slopeBetween_swap (v w : ComplexityVector) (s t : Float) :
    slopeBetween v w s t = slopeBetween w v t s := by
  unfold slopeBetween
  rw [euclideanDistance_swap, abs_sub_swap]

lemma noMinus_slopeBetween (v w : ComplexityVector) (s t : Float) :
    NoMinus (slopeBetween v w s t) := by
  unfold slopeBetween
  dsimp only
  split_ifs
  · exact noMinus_zero
  · exact (noMinus_abs _).div (noMinus_euclideanDistance v w)

lemma slopeBetween_self {v : ComplexityVector} (hv : ∀ d, (v.get d).isFinite) (s t : Float) :
    slopeBetween v v s t = 0.0 := by
  unfold slopeBetween
  rw [euclideanDistance_self hv]
  exact if_pos (by decide)

end Convergence

open Convergence (slopeBetween) in
/-- **Neither distances nor slopes have a direction.** For all vectors, matrices and scores, whatever
doubles they are made of: the scalar product, both distances and the slope are the same to the bit
with their vectors, and the scores of the slope, exchanged. The distances and the slope are not
below zero and not the negative zero. And the slope from a finite vector to itself is zero, whatever
the scores are. -/
theorem ComplexityVector.measures_swap (v w : ComplexityVector) (m : InteractionMatrix Float)
    (s t : Float) :
    v.dot w = w.dot v ∧
    v.euclideanDistance w = w.euclideanDistance v ∧
    v.interactionDistance w m = w.interactionDistance v m ∧
    slopeBetween v w s t = slopeBetween w v t s ∧
    (∀ x ∈ [v.euclideanDistance w, v.interactionDistance w m, slopeBetween v w s t],
      ¬x < 0.0 ∧ x ≠ -0.0) ∧
    ((∀ d, (v.get d).isFinite) → slopeBetween v v s t = 0.0) := by
  refine ⟨dot_swap v w, euclideanDistance_swap v w, interactionDistance_swap v w m,
    Convergence.slopeBetween_swap v w s t, ?signs, fun hv => Convergence.slopeBetween_self hv s t⟩
  case signs =>
    have hsign {x : Float} (hx : NoMinus x) : ¬x < 0.0 ∧ x ≠ -0.0 := ⟨hx.not_lt, hx.ne⟩
    simp only [List.forall_mem_cons]
    exact ⟨hsign (noMinus_euclideanDistance v w), hsign (noMinus_interactionDistance v w m),
      hsign (Convergence.noMinus_slopeBetween v w s t), by simp⟩

/-- Under a matrix that is not symmetric, from a vector with a negative zero to one with an infinite
component, and to itself with a score that is no number. -/
theorem ComplexityVector.measures_swap_infinite :
    let v : ComplexityVector := ⟨1.0, -0.0, 3.5, 1e200, 2.0⟩
    let w : ComplexityVector := ⟨4.0, 0.0, 3.5, -1e200, 1.0 / 0.0⟩
    let m : InteractionMatrix Float := InteractionMatrix.identity.map fun r => { r with state := 2.0 }
    m.isSymmetric = false ∧ v.interactionDistance w m = w.interactionDistance v m ∧
      (∀ d, (v.get d).isFinite) ∧ Convergence.slopeBetween v v (0.0 / 0.0) 1.0 = 0.0 := by
  intro v w m
  have hfinite (d : Dimension) : (v.get d).isFinite := by cases d <;> decide +kernel
  obtain ⟨-, -, hdistance, -, -, hself⟩ := measures_swap v w m (0.0 / 0.0) 1.0
  exact ⟨by decide +kernel, hdistance, hfinite, hself hfinite⟩

end CodeComplexity
