/-!
# Levels and zones

A score falls into one of five levels, and the ratio of a raw sum to its limit into one of three
zones. A value that is no number belongs to the worst class, since it passes no upper limit.
-/

namespace CodeComplexity

/-- How complex a score says a unit is. -/
inductive Level
  | minimal
  | low
  | medium
  | high
  | extreme
  deriving DecidableEq, Repr

namespace Level

/-- The levels from harmless to worst. -/
def all : List Level := [minimal, low, medium, high, extreme]

def severity : Level → Nat
  | minimal => 0
  | low => 1
  | medium => 2
  | high => 3
  | extreme => 4

instance : LE Level := ⟨fun a b => a.severity ≤ b.severity⟩

instance : DecidableLE Level := fun a b => inferInstanceAs (Decidable (a.severity ≤ b.severity))

def name : Level → String
  | minimal => "minimal"
  | low => "low"
  | medium => "medium"
  | high => "high"
  | extreme => "extreme"

def ofName? (s : String) : Option Level := all.find? fun x => x.name == s

@[simp] theorem ofName?_name (l : Level) : ofName? l.name = some l := by
  cases l <;> decide

def ofScore (score : Float) : Level :=
  if score < 2.0 then minimal
  else if score < 5.0 then low
  else if score < 10.0 then medium
  else if score < 20.0 then high
  else extreme

end Level

/-- Where a raw sum lies relative to its limit. -/
inductive Zone
  | safe
  | review
  | violation
  deriving DecidableEq, Repr

namespace Zone

/-- The zones from harmless to worst. -/
def all : List Zone := [safe, review, violation]

def severity : Zone → Nat
  | safe => 0
  | review => 1
  | violation => 2

instance : LE Zone := ⟨fun a b => a.severity ≤ b.severity⟩

instance : DecidableLE Zone := fun a b => inferInstanceAs (Decidable (a.severity ≤ b.severity))

def name : Zone → String
  | safe => "safe"
  | review => "review"
  | violation => "violation"

def ofName? (s : String) : Option Zone := all.find? fun x => x.name == s

@[simp] theorem ofName?_name (z : Zone) : ofName? z.name = some z := by
  cases z <;> decide

/-- The zone of the ratio of a raw sum to its limit. -/
def ofRatio (ratio : Float) : Zone :=
  if ratio < 0.7 then safe else if ratio < 1.0 then review else violation

end Zone

end CodeComplexity
