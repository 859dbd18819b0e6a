import CodeComplexity.PerDimension

/-!
# Interaction matrices

The entry at two dimensions says how strongly they compound. A matrix is meant to be symmetric
with a positive diagonal; dominance of the diagonal is only reported, never required.
-/

namespace CodeComplexity

/-- A square table of numbers indexed by two dimensions: a row for each dimension. -/
abbrev InteractionMatrix (α : Type) := PerDimension (PerDimension α)

namespace InteractionMatrix

variable {α : Type}

def entry (m : InteractionMatrix α) (i j : Dimension) : α := (m.get i).get j

def ofFn (f : Dimension → Dimension → α) : InteractionMatrix α :=
  PerDimension.ofFn fun i => PerDimension.ofFn (f i)

@[simp] theorem entry_ofFn (f : Dimension → Dimension → α) (i j : Dimension) :
    (ofFn f).entry i j = f i j := by
  simp [entry, ofFn]

/-- The entry at numeric positions, if both are dimensions. -/
def entryAt? (m : InteractionMatrix α) (row col : Nat) : Option α := do
  return m.entry (← Dimension.ofIndex? row) (← Dimension.ofIndex? col)

/-- The entries that couple each dimension with itself. -/
def diagonal (m : InteractionMatrix α) : PerDimension α := PerDimension.ofFn fun d => m.entry d d

def identity [OfNat α 0] [OfNat α 1] : InteractionMatrix α := ofFn fun i j => if i = j then 1 else 0

/-- The pairs of places on and off the diagonal, row by row. -/
def places : List (Dimension × Dimension) :=
  Dimension.all.flatMap fun i => Dimension.all.map fun j => (i, j)

/-- The places above the diagonal, row by row. -/
def upperPlaces : List (Dimension × Dimension) := places.filter fun p => p.1.index < p.2.index

@[simp] theorem mem_places (p : Dimension × Dimension) : p ∈ places := by
  obtain ⟨i, j⟩ := p
  cases i <;> cases j <;> decide

@[simp] theorem mem_upperPlaces {p : Dimension × Dimension} :
    p ∈ upperPlaces ↔ p.1.index < p.2.index := by
  simp [upperPlaces]

/-- The first place above the diagonal whose entry differs from the one across it. -/
def asymmetry [BEq α] (m : InteractionMatrix α) : Option (Dimension × Dimension) :=
  upperPlaces.find? fun p => !(m.entry p.1 p.2 == m.entry p.2 p.1)

/-- Whether every entry equals the one across the diagonal. -/
def isSymmetric [BEq α] (m : InteractionMatrix α) : Bool := m.asymmetry.isNone

section Arithmetic

variable [Add α] [Mul α] [OfNat α 0]

/-- The value of the quadratic form of `m` at `v`: the twenty-five terms `vᵢ · mᵢⱼ · vⱼ` added
from the left onto zero, row by row. -/
def quadraticForm (m : InteractionMatrix α) (v : PerDimension α) : α :=
  places.foldl (fun s p => s + v.get p.1 * m.entry p.1 p.2 * v.get p.2) 0

/-- The distance of two vectors weighted by interactions, before the root is taken. A quadratic form
can fall a little below zero, so its magnitude counts. -/
def squaredDistance [Sub α] (abs : α → α) (m : InteractionMatrix α) (v w : PerDimension α) : α :=
  abs (m.quadraticForm (v - w))

/-- What the interactions within a vector contribute to its score. -/
def interactionPart (scale : α) (m : InteractionMatrix α) (v : PerDimension α) : α :=
  m.quadraticForm v * scale

/-- The sum of the magnitudes in a row, its diagonal entry left out. -/
def offDiagonalSum (abs : α → α) (m : InteractionMatrix α) (i : Dimension) : α :=
  (Dimension.all.filter (· ≠ i)).foldl (fun s j => s + abs (m.entry i j)) 0

/-- Whether each diagonal entry is at least the sum of the magnitudes of the rest of its row. -/
def isDominant [LE α] [DecidableLE α] (abs : α → α) (m : InteractionMatrix α) : Bool :=
  Dimension.all.all fun i => decide (m.offDiagonalSum abs i ≤ m.entry i i)

end Arithmetic

end InteractionMatrix

end CodeComplexity
