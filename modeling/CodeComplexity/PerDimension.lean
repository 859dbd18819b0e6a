import CodeComplexity.Dimension

/-!
# One value for each dimension

`PerDimension α` is the family behind vectors, weights, profiles and interaction matrices. The
arithmetic on it is written for any number type: the analyses run it on doubles, and the same
definitions over an exact field say what the doubles approximate. Sums are always taken from
the left, in canonical order, since rounding makes the order visible.
-/

namespace CodeComplexity

/-- A value for each of the five dimensions. -/
@[ext] structure PerDimension (α : Type) where
  control : α
  nesting : α
  state : α
  async : α
  coupling : α
  deriving DecidableEq, Repr

namespace PerDimension

variable {α β γ : Type}

def get (v : PerDimension α) : Dimension → α
  | .control => v.control
  | .nesting => v.nesting
  | .state => v.state
  | .async => v.async
  | .coupling => v.coupling

def ofFn (f : Dimension → α) : PerDimension α :=
  ⟨f .control, f .nesting, f .state, f .async, f .coupling⟩

@[simp] theorem get_ofFn (f : Dimension → α) (d : Dimension) : (ofFn f).get d = f d := by
  cases d <;> rfl

@[simp] theorem ofFn_get (v : PerDimension α) : ofFn v.get = v := rfl

theorem ext_get {v w : PerDimension α} (h : ∀ d, v.get d = w.get d) : v = w := by
  rw [← ofFn_get v, ← ofFn_get w, funext h]

def const (a : α) : PerDimension α := ofFn fun _ => a

def map (f : α → β) (v : PerDimension α) : PerDimension β := ofFn fun d => f (v.get d)

def zipWith (f : α → β → γ) (v : PerDimension α) (w : PerDimension β) : PerDimension γ :=
  ofFn fun d => f (v.get d) (w.get d)

@[simp] theorem get_const (a : α) (d : Dimension) : (const a).get d = a := by simp [const]

@[simp] theorem get_map (f : α → β) (v : PerDimension α) (d : Dimension) :
    (v.map f).get d = f (v.get d) := by simp [map]

@[simp] theorem get_zipWith (f : α → β → γ) (v : PerDimension α) (w : PerDimension β)
    (d : Dimension) : (v.zipWith f w).get d = f (v.get d) (w.get d) := by simp [zipWith]

def toList (v : PerDimension α) : List α := Dimension.all.map v.get

/-- Reads exactly five values in canonical order. -/
def ofList? : List α → Option (PerDimension α)
  | [c, n, s, a, k] => some ⟨c, n, s, a, k⟩
  | _ => none

@[simp] theorem ofList?_toList (v : PerDimension α) : ofList? v.toList = some v := rfl

/-- Applies a function that may fail at every dimension, and fails if it fails at one. -/
def mapM? (f : α → Option β) (v : PerDimension α) : Option (PerDimension β) := do
  return ⟨← f v.control, ← f v.nesting, ← f v.state, ← f v.async, ← f v.coupling⟩

section Arithmetic

variable [Add α] [Mul α] [OfNat α 0]

/-- The sum of the values, added from the left onto zero. -/
def sum (v : PerDimension α) : α := Dimension.all.foldl (fun s d => s + v.get d) 0

def dot (v w : PerDimension α) : α := (v.zipWith (· * ·) w).sum

def normSq (v : PerDimension α) : α := v.dot v

end Arithmetic

/-- The sum of the values alone, with no zero in front of it. -/
def total [Add α] (v : PerDimension α) : α :=
  v.control + v.nesting + v.state + v.async + v.coupling

def sub [Sub α] (v w : PerDimension α) : PerDimension α := v.zipWith (· - ·) w

instance [Sub α] : Sub (PerDimension α) := ⟨sub⟩

@[simp] theorem get_sub [Sub α] (v w : PerDimension α) (d : Dimension) :
    (v - w).get d = v.get d - w.get d := get_zipWith ..

end PerDimension

end CodeComplexity
