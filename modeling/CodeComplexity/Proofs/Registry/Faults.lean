import CodeComplexity.Proofs.Double.Value
import CodeComplexity.Proofs.Registry.Validity
import CodeComplexity.Proofs.Scan

/-!
Which registries are valid, and what is reported of the others.

A matrix is searched three times: for an entry that is not finite, then for an asymmetry, then for a
diagonal entry that is not above zero. The later searches could not tell a value that is no number,
which differs from itself and is not below anything; after the first there is none left. Each search
ends at the first place it could end at, so the report of a registry is that of its first module
type with a fault, of its matrix if that has one, and there of the first kind of fault.
-/

namespace CodeComplexity

open Double

variable {t : ModuleType} {e : ConfigError}

/-! ### Matrices -/

namespace InteractionMatrix

variable {m : InteractionMatrix Float} {i j : Dimension}

/-- One place comes before another, row by row. -/
def Precedes (p q : Dimension × Dimension) : Prop :=
  p.1.index < q.1.index ∨ p.1 = q.1 ∧ p.2.index < q.2.index

instance (p q : Dimension × Dimension) : Decidable (Precedes p q) :=
  inferInstanceAs (Decidable (_ ∨ _))

lemma Precedes.not_precedes (p q : Dimension × Dimension) (h : Precedes p q) : ¬Precedes q p := by
  unfold Precedes at *
  rcases h with h | ⟨h, h'⟩
  · rintro (hq | ⟨hq, -⟩)
    · omega
    · rw [hq] at h
      omega
  · rw [h]
    omega

lemma pairwise_places : places.Pairwise Precedes := by decide

lemma pairwise_upperPlaces : upperPlaces.Pairwise Precedes := pairwise_places.filter _

/-- What a matrix has to be like. -/
structure Sound (m : InteractionMatrix Float) : Prop where
  finite : ∀ i j, (m.entry i j).isFinite
  symmetric : ∀ i j, (m.entry i j == m.entry j i) = true
  positive : ∀ d, 0.0 < m.entry d d

/-- What is wrong with the matrix of a module type, everything that is searched for earlier being
right. -/
inductive FirstFault (t : ModuleType) (m : InteractionMatrix Float) : ConfigError → Prop
  | nonFinite (i j : Dimension) (h : ¬(m.entry i j).isFinite)
    (hbefore : ∀ k l, Precedes (k, l) (i, j) → (m.entry k l).isFinite) :
    FirstFault t m (.nonFiniteEntry t i j)
  | asymmetric (i j : Dimension) (hfinite : ∀ k l, (m.entry k l).isFinite)
    (habove : i.index < j.index) (h : ¬(m.entry i j == m.entry j i) = true)
    (hbefore : ∀ k l, k.index < l.index → Precedes (k, l) (i, j) →
      (m.entry k l == m.entry l k) = true) :
    FirstFault t m (.asymmetricMatrix t i j)
  | nonPositive (d : Dimension) (hfinite : ∀ k l, (m.entry k l).isFinite)
    (hsymmetric : ∀ k l, (m.entry k l == m.entry l k) = true) (h : ¬0.0 < m.entry d d)
    (hbefore : ∀ c, c.index < d.index → 0.0 < m.entry c c) :
    FirstFault t m (.nonPositiveDiagonal t d (m.entry d d))

/-! #### The three searches -/

/-- The first place with an entry that is not finite. -/
def nonFinite? (m : InteractionMatrix Float) : Option (Dimension × Dimension) :=
  places.find? fun p => !(m.entry p.1 p.2).isFinite

/-- The first diagonal entry that is not above zero, if it can be told. -/
def nonPositive? (m : InteractionMatrix Float) : Option Dimension :=
  Dimension.all.find? fun d => decide (m.entry d d ≤ 0.0)

lemma nonFinite?_eq_none : m.nonFinite? = none ↔ ∀ i j, (m.entry i j).isFinite := by
  simp [nonFinite?, List.find?_eq_none]

lemma nonFinite?_eq_some : m.nonFinite? = some (i, j) ↔
    ¬(m.entry i j).isFinite ∧ ∀ k l, Precedes (k, l) (i, j) → (m.entry k l).isFinite := by
  simp [nonFinite?, find?_eq_some_of_pairwise Precedes.not_precedes pairwise_places]

lemma asymmetry_eq_some : m.asymmetry = some (i, j) ↔
    i.index < j.index ∧ ¬(m.entry i j == m.entry j i) = true ∧
      ∀ k l, k.index < l.index → Precedes (k, l) (i, j) → (m.entry k l == m.entry l k) = true := by
  simp [asymmetry, find?_eq_some_of_pairwise Precedes.not_precedes pairwise_upperPlaces]

section Finite

variable (hm : ∀ i j, (m.entry i j).isFinite)

include hm

/-- Comparing half of the places is enough where every entry is a number. -/
lemma asymmetry_eq_none :
    m.asymmetry = none ↔ ∀ i j, (m.entry i j == m.entry j i) = true := by
  have hself (i : Dimension) : (m.entry i i == m.entry i i) = true :=
    have hnumber := not_isNaN_of_isFinite (hm i i)
    beq_iff.2 ⟨hnumber, hnumber, rfl⟩
  have hswap {i j : Dimension} (h : (m.entry i j == m.entry j i) = true) :
      (m.entry j i == m.entry i j) = true := by
    obtain ⟨hi, hj, hvalue⟩ := beq_iff.1 h
    exact beq_iff.2 ⟨hj, hi, hvalue.symm⟩
  simp only [asymmetry, List.find?_eq_none, mem_upperPlaces, Prod.forall, Bool.not_eq_true',
    Bool.not_eq_false]
  refine ⟨fun h i j => ?_, fun h i j _ => h i j⟩
  rcases lt_trichotomy i.index j.index with hlt | heq | hgt
  · exact h i j hlt
  · rw [Dimension.index_injective heq]
    exact hself j
  · exact hswap (h j i hgt)

lemma nonPositive?_eq_none : m.nonPositive? = none ↔ ∀ d, 0.0 < m.entry d d := by
  simp only [nonPositive?, List.find?_eq_none, Dimension.mem_all, forall_const, decide_eq_true_eq]
  exact forall_congr' fun d => not_le_iff (not_isNaN_of_isFinite (hm d d)) rfl

lemma nonPositive?_eq_some {d : Dimension} : m.nonPositive? = some d ↔
    ¬0.0 < m.entry d d ∧ ∀ c, c.index < d.index → 0.0 < m.entry c c := by
  have hpositive (d : Dimension) : ¬m.entry d d ≤ 0.0 ↔ 0.0 < m.entry d d :=
    not_le_iff (not_isNaN_of_isFinite (hm d d)) rfl
  simp only [nonPositive?, Dimension.find?_all_eq_some, decide_eq_true_eq, decide_eq_false_iff_not,
    ← hpositive, not_not]

end Finite

end InteractionMatrix

namespace Registry

open InteractionMatrix (nonFinite? nonPositive?)

variable {m : InteractionMatrix Float}

/-- The check of a matrix reports what the first search that ends has found. -/
lemma matrixFault?_eq (t : ModuleType) (m : InteractionMatrix Float) : matrixFault? t m =
    (m.nonFinite?.map fun p => .nonFiniteEntry t p.1 p.2).or
      ((m.asymmetry.map fun p => .asymmetricMatrix t p.1 p.2).or
        (m.nonPositive?.map fun d => .nonPositiveDiagonal t d (m.entry d d))) := by
  unfold matrixFault? nonFinite? nonPositive?
  cases InteractionMatrix.places.find? fun p => !(m.entry p.1 p.2).isFinite with
  | some p => rfl
  | none => cases m.asymmetry <;> simp

/-- **A matrix without a fault** is finite and symmetric, with a positive diagonal. -/
lemma matrixFault?_eq_none_iff_sound : matrixFault? t m = none ↔ InteractionMatrix.Sound m := by
  rw [matrixFault?_eq, Option.or_eq_none_iff, Option.or_eq_none_iff, Option.map_eq_none_iff,
    Option.map_eq_none_iff, Option.map_eq_none_iff, InteractionMatrix.nonFinite?_eq_none]
  constructor
  · rintro ⟨hfinite, hsymmetric, hpositive⟩
    exact ⟨hfinite, (InteractionMatrix.asymmetry_eq_none hfinite).1 hsymmetric,
      (InteractionMatrix.nonPositive?_eq_none hfinite).1 hpositive⟩
  · rintro ⟨hfinite, hsymmetric, hpositive⟩
    exact ⟨hfinite, (InteractionMatrix.asymmetry_eq_none hfinite).2 hsymmetric,
      (InteractionMatrix.nonPositive?_eq_none hfinite).2 hpositive⟩

/-- **Of several faults of a matrix** the first kind is reported, at its first place. -/
lemma matrixFault?_eq_some_iff_firstFault :
    matrixFault? t m = some e ↔ InteractionMatrix.FirstFault t m e := by
  rw [matrixFault?_eq, Option.or_eq_some_iff, Option.or_eq_some_iff, Option.map_eq_none_iff,
    Option.map_eq_none_iff, Option.map_eq_some_iff, Option.map_eq_some_iff, Option.map_eq_some_iff,
    InteractionMatrix.nonFinite?_eq_none]
  constructor
  · rintro (⟨⟨i, j⟩, h, rfl⟩ | ⟨hfinite, ⟨⟨i, j⟩, h, rfl⟩ | ⟨hsymmetric, d, h, rfl⟩⟩)
    · obtain ⟨h, hbefore⟩ := InteractionMatrix.nonFinite?_eq_some.1 h
      exact .nonFinite i j h hbefore
    · obtain ⟨habove, h, hbefore⟩ := InteractionMatrix.asymmetry_eq_some.1 h
      exact .asymmetric i j hfinite habove h hbefore
    · obtain ⟨h, hbefore⟩ := (InteractionMatrix.nonPositive?_eq_some hfinite).1 h
      exact .nonPositive d hfinite ((InteractionMatrix.asymmetry_eq_none hfinite).1 hsymmetric) h
        hbefore
  · intro h
    cases h with
    | nonFinite i j h hbefore =>
      exact .inl ⟨(i, j), InteractionMatrix.nonFinite?_eq_some.2 ⟨h, hbefore⟩, rfl⟩
    | asymmetric i j hfinite habove h hbefore =>
      exact .inr ⟨hfinite, .inl
        ⟨(i, j), InteractionMatrix.asymmetry_eq_some.2 ⟨habove, h, hbefore⟩, rfl⟩⟩
    | nonPositive d hfinite hsymmetric h hbefore =>
      exact .inr ⟨hfinite, .inr ⟨(InteractionMatrix.asymmetry_eq_none hfinite).2 hsymmetric, d,
        (InteractionMatrix.nonPositive?_eq_some hfinite).2 ⟨h, hbefore⟩, rfl⟩⟩

end Registry

/-! ### Profiles -/

/-- What an interval has to be like. -/
structure Interval.Sound (i : Interval) : Prop where
  min : i.min.isFinite
  max : i.max.isFinite
  ordered : i.min ≤ i.max

lemma Interval.isProper_iff_sound {i : Interval} : i.isProper = true ↔ i.Sound := by
  rw [isProper_eq_true]
  constructor
  · rintro ⟨hmin, hmax, h⟩
    exact ⟨hmin, hmax, (not_lt_iff (not_isNaN_of_isFinite hmax) (not_isNaN_of_isFinite hmin)).1 h⟩
  · rintro ⟨hmin, hmax, h⟩
    exact ⟨hmin, hmax, (not_lt_iff (not_isNaN_of_isFinite hmax) (not_isNaN_of_isFinite hmin)).2 h⟩

/-- What is wrong with the profile of a module type: the first interval that is not as it has to
be. -/
inductive Profile.FirstFault (t : ModuleType) (p : Profile) : ConfigError → Prop
  | interval (d : Dimension) (h : ¬(p.get d).Sound)
    (hbefore : ∀ c, c.index < d.index → (p.get c).Sound) :
    FirstFault t p (.improperInterval t d (p.get d))

namespace Registry

variable {p : Profile} {r : Registry}

lemma profileFault?_eq_some_iff_firstFault :
    profileFault? t p = some e ↔ Profile.FirstFault t p e := by
  simp only [profileFault?, Option.map_eq_some_iff, Dimension.find?_all_eq_some, Bool.not_eq_true',
    Interval.isProper_iff_sound, ← Bool.not_eq_true, not_not]
  constructor
  · rintro ⟨d, ⟨h, hbefore⟩, rfl⟩
    exact .interval d h hbefore
  · rintro ⟨d, h, hbefore⟩
    exact ⟨d, ⟨h, hbefore⟩, rfl⟩

/-! ### Registries -/

/-- What the entry of a module type has to be like. -/
structure SoundAt (r : Registry) (t : ModuleType) : Prop where
  matrix : InteractionMatrix.Sound (r.matrix t)
  profile : ∀ d, ((r.profile t).get d).Sound

/-- What is wrong with a registry: a fault of the first module type that has one, of its matrix
before its profile. -/
inductive FirstReport (r : Registry) : ConfigError → Prop
  | matrix (t : ModuleType) (hbefore : ∀ u, u.index < t.index → r.SoundAt u) {e : ConfigError}
    (h : InteractionMatrix.FirstFault t (r.matrix t) e) : FirstReport r e
  | profile (t : ModuleType) (hbefore : ∀ u, u.index < t.index → r.SoundAt u)
    (hmatrix : InteractionMatrix.Sound (r.matrix t)) {e : ConfigError}
    (h : Profile.FirstFault t (r.profile t) e) : FirstReport r e

lemma entryFault?_eq_none_iff_soundAt : r.entryFault? t = none ↔ r.SoundAt t := by
  rw [entryFault?_eq_none, matrixFault?_eq_none_iff_sound, profileFault?_eq_none]
  simp only [Interval.isProper_iff_sound]
  exact ⟨fun h => ⟨h.1, h.2⟩, fun h => ⟨h.1, h.2⟩⟩

lemma findSome?_entryFault? :
    ModuleType.all.findSome? r.entryFault? = some e ↔
      ∃ t, r.entryFault? t = some e ∧ ∀ u, u.index < t.index → r.SoundAt u := by
  have hall : ModuleType.all.Pairwise (·.index < ·.index) := by decide
  simp [findSome?_eq_some_of_pairwise (fun _ _ => Nat.lt_asymm) hall,
    entryFault?_eq_none_iff_soundAt]

lemma validate_eq_error_iff_firstReport : r.validate = .error e ↔ r.FirstReport e := by
  rw [validate_eq, refuse_eq_error, findSome?_entryFault?]
  simp only [entryFault?, Option.or_eq_some_iff, matrixFault?_eq_some_iff_firstFault,
    matrixFault?_eq_none_iff_sound, profileFault?_eq_some_iff_firstFault]
  constructor
  · rintro ⟨t, h | ⟨hmatrix, h⟩, hbefore⟩
    exacts [.matrix t hbefore h, .profile t hbefore hmatrix h]
  · rintro (⟨t, hbefore, h⟩ | ⟨t, hbefore, hmatrix, h⟩)
    exacts [⟨t, .inl h, hbefore⟩, ⟨t, .inr ⟨hmatrix, h⟩, hbefore⟩]

/-- **The check of a registry.** It is passed exactly if every matrix is finite and symmetric with a
positive diagonal and every interval is finite and in order. Of anything else the first fault is
reported. So no value that is no number gets into a valid registry, on the diagonal or off it. -/
theorem validate_reports (r : Registry) :
    (r.validate = .ok () ↔ ∀ t, r.SoundAt t) ∧
    (∀ e, r.validate = .error e ↔ r.FirstReport e) ∧
    ∀ t i j, ((r.matrix t).entry i j).isNaN = true → r.validate ≠ .ok () := by
  have hok : r.validate = .ok () ↔ ∀ t, r.SoundAt t := by
    rw [validate_eq_ok]
    simp only [← entryFault?_eq_none, entryFault?_eq_none_iff_soundAt]
  refine ⟨hok, fun e => validate_eq_error_iff_firstReport, fun t i j hnan h => ?_⟩
  have hnumber := not_isNaN_of_isFinite ((hok.1 h t).matrix.finite i j)
  exact Bool.noConfusion (hnumber.symm.trans hnan)

end Registry

end CodeComplexity
