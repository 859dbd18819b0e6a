/-!
# The five dimensions

A unit of code is measured along five axes, always in the same canonical order. Everything
that lists dimensions lists them in that order.
-/

namespace CodeComplexity

/-- One axis of the complexity space. -/
inductive Dimension
  /-- Branch points. -/
  | control
  /-- Depth of nesting. -/
  | nesting
  /-- State mutations. -/
  | state
  /-- Asynchronous boundaries. -/
  | async
  /-- Hidden coupling. -/
  | coupling
  deriving DecidableEq, Repr

namespace Dimension

/-- The dimensions in canonical order. -/
def all : List Dimension := [control, nesting, state, async, coupling]

@[simp] theorem mem_all (d : Dimension) : d ∈ all := by
  cases d <;> decide

theorem nodup_all : all.Nodup := by decide

def index : Dimension → Nat
  | control => 0
  | nesting => 1
  | state => 2
  | async => 3
  | coupling => 4

/-- The dimension at a place of the canonical order. -/
def ofIndex? (i : Nat) : Option Dimension := all[i]?

@[simp] theorem ofIndex?_index (d : Dimension) : ofIndex? d.index = some d := by
  cases d <;> rfl

theorem index_injective {d e : Dimension} (h : d.index = e.index) : d = e := by
  simpa using congrArg ofIndex? h

def name : Dimension → String
  | control => "control"
  | nesting => "nesting"
  | state => "state"
  | async => "async"
  | coupling => "coupling"

/-- The dimension of a name, which has to match exactly. -/
def ofName? (s : String) : Option Dimension := all.find? fun d => d.name == s

@[simp] theorem ofName?_name (d : Dimension) : ofName? d.name = some d := by
  cases d <;> decide

end Dimension

end CodeComplexity
