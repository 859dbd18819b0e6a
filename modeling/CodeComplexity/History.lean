import CodeComplexity.Convergence

/-!
# Score histories

The latest scores of one unit, in the order they were recorded. A history tells whether its scores
go up and down without settling, and which way they tend.
-/

namespace CodeComplexity

namespace LeastSquares

section

variable {α : Type} [Add α] [Sub α] [Mul α] [Div α] (cast : Nat → α) (ys : List α)

/-- The position of each value and the value itself, as they lie from their means. -/
def offsets : List (α × α) :=
  let meanX := cast (ys.length - 1) / cast 2
  let meanY := ys.foldl (· + ·) (cast 0) / cast ys.length
  ys.zipIdx.map fun p => (cast p.2 - meanX, p.1 - meanY)

def covariance : α := (offsets cast ys).foldl (fun s p => s + p.1 * p.2) (cast 0)

def variance : α := (offsets cast ys).foldl (fun s p => s + p.1 * p.1) (cast 0)

end

end LeastSquares

/-- The least-squares slope of values over their positions, in any number type that `cast` takes
natural numbers into. Fewer than two values have slope zero. -/
def leastSquaresSlope {α : Type} [Add α] [Sub α] [Mul α] [Div α] [BEq α] (cast : Nat → α)
    (ys : List α) : α :=
  if ys.length < 2 then cast 0
  else
    let variance := LeastSquares.variance cast ys
    if variance == cast 0 then cast 0 else LeastSquares.covariance cast ys / variance

/-- The latest scores of a unit, oldest first, and how many are kept. -/
structure History where
  scores : List Float
  limit : Nat
  deriving DecidableEq

namespace History

/-- How many scores are kept unless a limit is given. -/
def defaultLimit : Nat := 10

/-- An empty history that keeps at least one score. The limit may be any number, though no memory
has room for two to the power 60 scores: where room is made for all of them at once, a history with
such a limit does not come about. -/
def withLimit (limit : Nat) : History := ⟨[], max limit 1⟩

def empty : History := withLimit defaultLimit

/-- Records a score; when the history is full the oldest makes room for it. -/
def push (h : History) (score : Float) : History :=
  if h.scores.length = h.limit then { h with scores := h.scores.drop 1 ++ [score] }
  else { h with scores := h.scores ++ [score] }

def latest? (h : History) : Option Float := h.scores.getLast?

/-- How many scores a history must hold before it can oscillate. -/
def minSamples : Nat := 4

/-- The share of the changes that must turn around in an oscillation. -/
def oscillationRatio : Float := 0.6

def changes : List Float → List Float
  | a :: b :: rest => (b - a) :: changes (b :: rest)
  | _ => []

/-- The number of neighbouring changes of opposite sign. -/
def turns : List Float → Nat
  | a :: b :: rest => (if a * b < 0.0 then 1 else 0) + turns (b :: rest)
  | _ => 0

/-- Whether the scores rise and fall by turns without settling. -/
def isOscillating (h : History) : Bool :=
  let deltas := changes h.scores
  decide (minSamples ≤ h.scores.length) &&
    decide (Float.ofNat deltas.length * oscillationRatio ≤ Float.ofNat (turns deltas))

/-- The slope of the scores: below zero they improve, above zero they get worse. -/
def trend (h : History) : Float := leastSquaresSlope Float.ofNat h.scores

end History

/-- Asks with the oscillation that a history shows. -/
def Convergence.Request.withHistory (r : Convergence.Request) (h : History) : Convergence.Request :=
  { r with oscillating := h.isOscillating }

end CodeComplexity
