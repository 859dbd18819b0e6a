import CodeComplexity.Document.Basic
import CodeComplexity.InteractionMatrix
import CodeComplexity.Level
import CodeComplexity.ModuleType
import CodeComplexity.Profile

/-!
# Exchanged forms: the building blocks

Every record that is exchanged has a form as a document: `toDocument` writes it and `ofDocument?`
reads it back. A record is written as a table of all its fields and may also be read from an array
of them in order; the names of closed lists are written as they are.
-/

namespace CodeComplexity

open Document

def Dimension.toDocument (d : Dimension) : Document := text d.name

def Dimension.ofDocument? : Document → Option Dimension := named? ofName?

def ModuleType.toDocument (t : ModuleType) : Document := text t.name

/-- Reads the name of a module type. Any string is one: what is not recognised means `unknown`. -/
def ModuleType.ofDocument? (d : Document) : Option ModuleType := d.toText?.map ofName

def Level.toDocument (l : Level) : Document := text l.name

def Level.ofDocument? : Document → Option Level := named? ofName?

def Zone.toDocument (z : Zone) : Document := text z.name

def Zone.ofDocument? : Document → Option Zone := named? ofName?

namespace ComplexityVector

def toDocument (v : ComplexityVector) : Document := ofPerDimension ofFloat v

/-- Reads the five components; a missing one is zero. -/
def ofDocument? (surplus : Surplus) : Document → Option ComplexityVector :=
  perDimensionOr? surplus toFloat? zero

end ComplexityVector

namespace Interval

def toDocument (i : Interval) : Document := list [ofFloat i.min, ofFloat i.max]

def ofDocument? (surplus : Surplus) (d : Document) : Option Interval := do
  let [min, max] ← d.row? surplus 2 | none
  return ⟨← min.toFloat?, ← max.toFloat?⟩

end Interval

namespace Profile

def toDocument (p : Profile) : Document := ofPerDimension Interval.toDocument p

def ofDocument? (surplus : Surplus) : Document → Option Profile :=
  perDimension? surplus (Interval.ofDocument? surplus)

end Profile

namespace InteractionMatrix

def toDocument (m : InteractionMatrix Float) : Document :=
  list (m.toList.map fun row => list (row.toList.map ofFloat))

def ofDocument? (surplus : Surplus) (d : Document) : Option (InteractionMatrix Float) := do
  let rows ← (← d.row? surplus 5).mapM fun row => do
    PerDimension.ofList? (← (← row.row? surplus 5).mapM toFloat?)
  PerDimension.ofList? rows

end InteractionMatrix

end CodeComplexity
