import CodeComplexity.Deviation
import CodeComplexity.Proofs.Double.Plain

/-!
Without interactions both distances are one.

Under the identity matrix the twenty-five terms of a quadratic form are five squares and twenty
zeros, some of them negative. The sum of the terms begins at zero and is never below it, so the
zeros leave no trace in it, and row by row it is the sum of the squares: also when that has run off
the range, or when every square has vanished.
-/

namespace CodeComplexity

open Double

/-! ### Terms -/

section Terms

variable {x y z : Float}

lemma Double.Approximates.beq_zero (h : Approximates x 0) : (x == 0.0) = true :=
  beq_iff.2 ⟨h.not_isNaN, rfl, h.value.trans rounded_zero⟩

/-- Between finite factors a zero leaves a zero, whatever their signs. -/
lemma mul_zero_mul_beq_zero (hx : x.isFinite) (hy : y.isFinite) (hz : (z == 0.0) = true) :
    (x * z * y == 0.0) = true := by
  have hmul {a b : Float} (ha : a.isFinite) (hb : b.isFinite) (h0 : real a * real b = 0) :
      (a * b == 0.0) = true := (h0 ▸ approximates_mul ha hb).beq_zero
  have hreal {a : Float} (h : (a == 0.0) = true) : a.isFinite ∧ real a = 0 :=
    isFinite_of_value (zero_le_of_beq_zero h).2
  obtain ⟨hzf, hz0⟩ := hreal hz
  obtain ⟨hxzf, hxz0⟩ := hreal (hmul hx hzf (by rw [hz0, mul_zero]))
  exact hmul hxzf hy (by rw [hxz0, zero_mul])

/-- Multiplying by one is exact, so a square stays one. -/
lemma mul_one_mul_spec (hx : x.isFinite) (hz : (z == 1.0) = true) :
    0.0 ≤ x * z * x ∧ value (x * z * x) = value (x * x) := by
  obtain ⟨hzf, hz1⟩ := isFinite_of_value (r := 1) ((beq_iff.1 hz).2.2.trans value_one)
  have hprod := approximates_mul hx hzf
  rw [hz1, mul_one] at hprod
  obtain ⟨hxzf, hxz⟩ := hprod.exact (onGrid_real x) (abs_real_lt x)
  have hterm := approximates_mul hxzf hx
  have hvalue : value (x * z * x) = value (x * x) := by
    rw [hterm.value, hxz, (approximates_mul hx hx).value]
  exact ⟨zero_le_iff.2 ⟨hterm.not_isNaN, hvalue ▸ value_mul_self_nonneg x⟩, hvalue⟩

end Terms

/-! ### The form -/

namespace InteractionMatrix

/-- Whether a matrix is the identity, with zeros of either sign. -/
def IsIdentity (m : InteractionMatrix Float) : Prop :=
  ∀ i j, (m.entry i j == if i = j then 1.0 else 0.0) = true

lemma isIdentity_identity : (identity : InteractionMatrix Float).IsIdentity := by
  intro i j
  rw [identity, entry_ofFn]
  split_ifs <;> decide

section Identity

variable {m : InteractionMatrix Float} (hm : m.IsIdentity) {v : ComplexityVector}
  (hv : ∀ d, (v.get d).isFinite)

include hm hv

/-- A row adds the square of its component. -/
lemma foldl_row {s : Float} (hs : Plain s) (i : Dimension) :
    Dimension.all.foldl (fun s j => s + v.get i * m.entry i j * v.get j) s =
      s + v.get i * v.get i := by
  have hone : (m.entry i i == 1.0) = true := by simpa using hm i i
  have hzero (j : Dimension) (hj : j ≠ i) : (m.entry i j == 0.0) = true := by
    simpa [Ne.symm hj] using hm i j
  obtain ⟨hterm, hvalue⟩ := mul_one_mul_spec (hv i) hone
  rw [hs.foldl_single (fun j hj => mul_zero_mul_beq_zero (hv i) (hv j) (hzero j hj)) hterm
    Dimension.nodup_all, if_pos i.mem_all]
  exact hs.add_congr hterm (zero_le_mul_self (not_isNaN_of_isFinite (hv i))) hvalue

/-- **The form of the identity is the sum of the squares**, to the bit. -/
theorem quadraticForm_of_isIdentity : m.quadraticForm v = v.normSq ∧ Plain (m.quadraticForm v) := by
  rw [quadraticForm, places, List.foldl_flatMap, PerDimension.normSq, PerDimension.dot,
    PerDimension.sum]
  simp only [List.foldl_map, PerDimension.get_zipWith]
  refine List.foldl_rel (r := fun s t => s = t ∧ Plain s) ⟨rfl, plain_zero⟩ ?_
  rintro i - s t ⟨rfl, hs⟩
  rw [foldl_row hm hv hs]
  exact ⟨rfl, hs.add (zero_le_mul_self (not_isNaN_of_isFinite (hv i)))⟩

end Identity

end InteractionMatrix

/-! ### Distances -/

namespace ComplexityVector

lemma interactionDistance_of_isIdentity {m : InteractionMatrix Float} (hm : m.IsIdentity)
    {v w : ComplexityVector} (h : ∀ d, (v.get d - w.get d).isFinite) :
    v.interactionDistance w m = v.euclideanDistance w ∧ Plain (v - w).normSq := by
  obtain ⟨hform, hplain⟩ := InteractionMatrix.quadraticForm_of_isIdentity hm (v := v - w)
    fun d => by rw [PerDimension.get_sub]; exact h d
  refine ⟨?_, hform ▸ hplain⟩
  rw [interactionDistance, InteractionMatrix.squaredDistance, hplain.abs_eq, hform]
  rfl

/-- **The identity weighs nothing.** For vectors whose differences are finite, the distance weighted
by an identity matrix, whatever the signs of its zeros, is the plain distance, to the bit, and a
number. So the two distances that are reported of a vector are one if the matrix of its module type
is an identity. -/
theorem interactionDistance_identity :
    (InteractionMatrix.identity : InteractionMatrix Float).IsIdentity ∧
    (∀ (m : InteractionMatrix Float) (v w : ComplexityVector), m.IsIdentity →
      (∀ d, (v.get d - w.get d).isFinite) →
      v.interactionDistance w m = v.euclideanDistance w ∧ 0.0 ≤ v.euclideanDistance w) ∧
    ∀ (r : Registry) (t : ModuleType) (v : ComplexityVector), (r.matrix t).IsIdentity →
      (∀ d, (v.get d - (r.profile t).centroid.get d).isFinite) →
      (Deviation.ofVector r v t).interactionDistance =
        (Deviation.ofVector r v t).euclideanDistance := by
  refine ⟨InteractionMatrix.isIdentity_identity, fun m v w hm h => ?distances,
    fun r t v hm h => ?reported⟩
  case distances =>
    obtain ⟨heq, hplain⟩ := interactionDistance_of_isIdentity hm h
    exact ⟨heq, zero_le_sqrt hplain.nonneg⟩
  case reported =>
    exact congrArg (Rounding.toPlaces · 3) (interactionDistance_of_isIdentity hm h).1

/-- Squares that run off the range, squares that vanish, and a registry with an identity. -/
theorem interactionDistance_identity_extreme :
    (let v : ComplexityVector := ⟨1e200, -1e200, 0.0, 3.0, -5e-324⟩
     (∀ d, (v.get d - zero.get d).isFinite) ∧
       v.interactionDistance zero .identity = v.euclideanDistance zero ∧
       v.euclideanDistance zero = 1.0 / 0.0) ∧
    (let v : ComplexityVector := .const (-1e-200)
     (∀ d, (v.get d - zero.get d).isFinite) ∧
       v.interactionDistance zero .identity = v.euclideanDistance zero ∧
       v.euclideanDistance zero = 0.0) ∧
    let r := Registry.shipped.setMatrix .lib .identity
    let v : ComplexityVector := ⟨7.0, -2.0, 0.0, 0.5, 1e9⟩
    (∀ d, (v.get d - (r.profile .lib).centroid.get d).isFinite) ∧
      (Deviation.ofVector r v .lib).interactionDistance =
        (Deviation.ofVector r v .lib).euclideanDistance := by
  obtain ⟨hidentity, hdistances, hreported⟩ := interactionDistance_identity
  refine ⟨?large, ?small, ?registry⟩
  case large =>
    intro v
    have h (d : Dimension) : (v.get d - zero.get d).isFinite := by cases d <;> decide +kernel
    exact ⟨h, (hdistances _ v zero hidentity h).1, by decide +kernel⟩
  case small =>
    intro v
    have h (d : Dimension) : (v.get d - zero.get d).isFinite := by cases d <;> decide +kernel
    exact ⟨h, (hdistances _ v zero hidentity h).1, by decide +kernel⟩
  case registry =>
    intro r v
    have h (d : Dimension) : (v.get d - (r.profile .lib).centroid.get d).isFinite := by
      cases d <;> decide +kernel
    exact ⟨h, hreported r .lib v hidentity h⟩

end ComplexityVector

end CodeComplexity
