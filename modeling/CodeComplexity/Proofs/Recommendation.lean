import CodeComplexity.Proofs.Double.Signed
import CodeComplexity.Proofs.Double.TotalOrder
import CodeComplexity.Recommendation

/-!
Which dimensions are recommended, and in which order.

The ranking is an insertion sort that runs from the last dimension to the first. Each dimension goes
in front of all that do not outrank it, so those of equal rank stay in canonical order. Leaving out
the small shares afterwards disturbs neither the order nor the rest of the advice, and leaves only
shares whose tenths can be counted.
-/

namespace CodeComplexity.Recommendation

open Double
open DoubleBits (rank ofFloat)

/-! ### The ranking -/

section Ranking

variable {f : Dimension → Int} {d : Dimension} {l : List Dimension}

/-- A dimension outranks another one, or is of equal rank and comes before it. -/
def Precedes (f : Dimension → Int) (d e : Dimension) : Prop :=
  f e < f d ∨ f d = f e ∧ d.index < e.index

lemma precedes_of_le {e : Dimension} (h : f e ≤ f d) (hindex : d.index < e.index) :
    Precedes f d e := by
  unfold Precedes
  omega

lemma place_perm (f : Dimension → Int) (d : Dimension) (l : List Dimension) :
    (place f d l).Perm (d :: l) := by
  induction l with
  | nil => rfl
  | cons e rest ih =>
    unfold place
    split
    · rfl
    · exact (ih.cons e).trans (.swap d e rest)

/-- Placing a dimension that comes before all others keeps the order. -/
lemma pairwise_place (h : l.Pairwise (Precedes f)) (hd : ∀ e ∈ l, d.index < e.index) :
    (place f d l).Pairwise (Precedes f) := by
  induction l with
  | nil => exact List.pairwise_singleton ..
  | cons e rest ih =>
    obtain ⟨he, hrest⟩ := List.pairwise_cons.1 h
    obtain ⟨hde, hdrest⟩ := List.forall_mem_cons.1 hd
    unfold place
    split_ifs with hle
    · refine List.pairwise_cons.2 ⟨List.forall_mem_cons.2 ⟨precedes_of_le hle hde, ?_⟩, h⟩
      intro x hx
      have hxe : f x ≤ f e := by
        have := he x hx
        unfold Precedes at this
        omega
      exact precedes_of_le (hxe.trans hle) (hdrest x hx)
    · refine List.pairwise_cons.2 ⟨fun x hx => ?_, ih hrest hdrest⟩
      rcases List.mem_cons.1 ((place_perm f d rest).mem_iff.1 hx) with rfl | hx
      · exact .inl (not_le.1 hle)
      · exact he x hx

lemma foldr_place_perm (f : Dimension → Int) (l : List Dimension) :
    (l.foldr (place f) []).Perm l := by
  induction l with
  | nil => rfl
  | cons d rest ih => exact (place_perm f d _).trans (ih.cons d)

lemma pairwise_foldr_place (hl : l.Pairwise (·.index < ·.index)) :
    (l.foldr (place f) []).Pairwise (Precedes f) := by
  induction l with
  | nil => exact .nil
  | cons d rest ih =>
    obtain ⟨hd, hrest⟩ := List.pairwise_cons.1 hl
    exact pairwise_place (ih hrest) fun e he => hd e ((foldr_place_perm f rest).mem_iff.1 he)

/-- **Every dimension is ranked once.** -/
theorem ranking_perm (f : Dimension → Int) : (ranking f).Perm Dimension.all :=
  foldr_place_perm f Dimension.all

/-- **The ranking falls, and keeps the canonical order among equals.** -/
theorem pairwise_ranking (f : Dimension → Int) : (ranking f).Pairwise (Precedes f) :=
  pairwise_foldr_place (by decide)

end Ranking

/-! ### Priorities -/

section Priorities

variable {s : Float}

lemma real_four : real 4.0 = 4 := real_of_eq_ofNat (n := 4) (by decide) (by decide)

/-- What is not a small share is at least a tenth, or no number, which stands above. -/
lemma minShare_le_value (h : ¬s < minShare) : value minShare ≤ value s := by
  rcases hs : s.isNaN with _ | _
  · rw [lt_iff_value hs rfl] at h
    exact not_lt.1 h
  · rw [value_of_isNaN hs]
    exact le_top

lemma value_pos_of_not_small (h : ¬s < minShare) : 0 < value s :=
  (pos_of_lt (x := minShare) (by decide)).trans_le (minShare_le_value h)

lemma one_le_value_tenths (h : ¬s < minShare) : 1 ≤ value (s * 10.0) :=
  value_one ▸ value_mul_mono (x := minShare) (c := 10.0) rfl (by decide) (minShare_le_value h)

lemma one_le_tenths (h : ¬s < minShare) (hfinite : (s * 10.0).isFinite) :
    1 ≤ real (s * 10.0) := by
  have hone := one_le_value_tenths h
  rw [value_of_isFinite hfinite] at hone
  exact_mod_cast hone

/-- **The priority of a share that is large enough** is one more than the full tenths in it, and
five if that is more, or if the tenths are infinite or no number. -/
theorem priorityOf_eq (h : ¬s < minShare) : priorityOf s =
    if (s * 10.0).isFinite then min 5 (⌊real (s * 10.0)⌋₊ + 1) else 5 := by
  split_ifs with hfinite
  · have hone := one_le_tenths h hfinite
    have hlt_iff : s * 10.0 < 4.0 ↔ ⌊real (s * 10.0)⌋₊ < 4 := by
      rw [lt_iff_real hfinite rfl, real_four, Nat.floor_lt (by linarith), Nat.cast_ofNat]
    unfold priorityOf
    dsimp only
    split_ifs with hlt
    · have hfour := (lt_iff_real hfinite rfl).1 hlt
      rw [real_four] at hfour
      have hfloor := hlt_iff.1 hlt
      rw [toUInt8_eq hfinite (by linarith) (by linarith)]
      omega
    · have hfloor := mt hlt_iff.2 hlt
      omega
  · -- what is below four tenths lies between a tenth and four, so it is finite
    refine if_neg fun hlt => hfinite ?_
    have hfour : value (s * 10.0) < ⊤ := (lt_iff.1 hlt).2.2.trans_le le_top
    exact (finite_of_nonneg (zero_le_one.trans (one_le_value_tenths h)) hfour.ne).1

end Priorities

/-! ### The advice -/

section Advice

variable {c : PerDimension Float} {total : Float} {d : Dimension} {a : Recommendation}

lemma advise?_eq_some : advise? c total d = some a ↔ ¬c.get d / total < minShare ∧
    a = ⟨d, priorityOf (c.get d / total), d.action,
      Rounding.toPlaces (c.get d * impactFactor) 2⟩ := by
  unfold advise?
  dsimp only
  split_ifs with h <;> simp [h, eq_comm]

/-- What is recommended is what has a share that is large enough. -/
lemma map_dimension_filterMap (l : List Dimension) :
    (l.filterMap (advise? c total)).map dimension =
      l.filter fun d => ¬c.get d / total < minShare := by
  induction l with
  | nil => rfl
  | cons d rest ih =>
    by_cases h : c.get d / total < minShare
    · rw [List.filterMap_cons_none (by simp [advise?, h]), List.filter_cons_of_neg (by simpa), ih]
    · rw [List.filterMap_cons_some (advise?_eq_some.2 ⟨h, rfl⟩), List.map_cons,
        List.filter_cons_of_pos (by simpa), ih]

lemma dimension_of_advise? (h : advise? c total d = some a) : a.dimension = d := by
  rw [(advise?_eq_some.1 h).2]

/-- A recommended dimension is recommended once. -/
lemma count_dimension (f : Dimension → Int) (d : Dimension) :
    (((ranking f).filterMap (advise? c total)).map dimension).count d =
      if c.get d / total < minShare then 0 else 1 := by
  rw [map_dimension_filterMap, ((ranking_perm f).filter _).count_eq]
  split_ifs with h
  · exact List.count_eq_zero.2 fun hd => by simp [h] at hd
  · rw [List.count_filter (by simpa using h)]
    exact List.count_eq_one_of_mem Dimension.nodup_all (Dimension.mem_all d)

lemma pairwise_filterMap (f : Dimension → Int) :
    ((ranking f).filterMap (advise? c total)).Pairwise fun a b =>
      Precedes f a.dimension b.dimension := by
  rw [List.pairwise_filterMap]
  refine (pairwise_ranking f).imp fun h a ha b hb => ?_
  rwa [dimension_of_advise? ha, dimension_of_advise? hb]

end Advice

/-! ### The recommendations -/

/-- **What is recommended**, for vectors and weights of any kind. If the contributions add up to
zero, nothing is. Otherwise every dimension is recommended once if its share is not below a tenth,
and not at all if it is. The contributions fall in the total order of doubles; those with the same
bits come in canonical order. Each recommendation is made from its own dimension alone; its priority
is one more than the full tenths in the share, but never more than five, and five if the tenths are
infinite or no number. -/
theorem ofVectorWith_ranked (nan : Dimension → UInt64) (v weights : ComplexityVector) :
    let c := fun d : Dimension => v.get d * weights.get d
    let total := 0.0 + c .control + c .nesting + c .state + c .async + c .coupling
    let bits := fun d : Dimension => ofFloat (nan d) (c d)
    let rs := ofVectorWith nan v weights
    if total == 0.0 then rs = []
    else
      (∀ d, (rs.map dimension).count d = if c d / total < 0.1 then 0 else 1) ∧
      rs.Pairwise (fun a b => rank (bits b.dimension) < rank (bits a.dimension) ∨
        bits a.dimension = bits b.dimension ∧ a.dimension.index < b.dimension.index) ∧
      ∀ a ∈ rs, a = ⟨a.dimension, priorityOf (c a.dimension / total), a.dimension.action,
        Rounding.toPlaces (c a.dimension * 0.3) 2⟩ ∧
        let tenths := c a.dimension / total * 10.0
        a.priority = if tenths.isFinite then min 5 (⌊real tenths⌋₊ + 1) else 5 := by
  intro c total bits rs
  have hc (d : Dimension) : (contributions v weights).get d = c d := PerDimension.get_zipWith ..
  have htotal : (contributions v weights).sum = total := rfl
  simp only [rs, ofVectorWith, htotal]
  split_ifs with hzero
  · rfl
  · have hbits : (fun d => rank (ofFloat (nan d) ((contributions v weights).get d))) =
        fun d => rank (bits d) := funext fun d => by rw [hc]
    rw [hbits]
    refine ⟨fun d => ?once, (pairwise_filterMap _).imp fun h => ?order, fun a ha => ?advice⟩
    case once => rw [count_dimension, hc, minShare]
    case order => exact h.imp_right fun heq => heq.imp_left rank_injective
    case advice =>
      obtain ⟨d, -, hd⟩ := List.mem_filterMap.1 ha
      obtain ⟨hshare, rfl⟩ := advise?_eq_some.1 hd
      rw [hc] at hshare ⊢
      exact ⟨rfl, priorityOf_eq hshare⟩

/-- A contribution that is no number ranks above all that are, and leaves no share too small. -/
example : (ofVector ⟨0.0 / 0.0, 1.0, 3.0, 2.0, 2.0⟩ (.const 1.0)).map dimension =
    [.control, .state, .async, .coupling, .nesting] := by
  decide +kernel

/-- In particular no contribution is followed by a larger one. -/
theorem pairwise_ofVectorWith (nan : Dimension → UInt64) (v weights : ComplexityVector) :
    (ofVectorWith nan v weights).Pairwise fun a b =>
      ¬v.get a.dimension * weights.get a.dimension < v.get b.dimension * weights.get b.dimension := by
  unfold ofVectorWith
  dsimp only
  split_ifs
  · exact .nil
  · refine (pairwise_filterMap _).imp fun {a b} h hlt => ?_
    simp only [Precedes, contributions, PerDimension.get_zipWith] at h
    have hrank := rank_ofFloat_lt (nan a.dimension) (nan b.dimension) hlt
    omega

end CodeComplexity.Recommendation
