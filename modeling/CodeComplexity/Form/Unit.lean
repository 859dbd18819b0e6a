import CodeComplexity.Engine
import CodeComplexity.Form.Result

/-!
# Exchanged forms: units and reports

A unit comes in as a record and its report goes out as one. Reports are not read back.
-/

namespace CodeComplexity

open Document

namespace CodeUnit

def toDocument (u : CodeUnit) : Document :=
  table
    [("name", (u.name.map text).getD null), ("vector", u.vector.toDocument),
      ("module_hint", u.hint.toDocument),
      ("previous", (u.previous.map Measurement.toDocument).getD null),
      ("oscillating", bool u.oscillating)]

/-- Reads the record of a unit, of which only the vector has to be there. -/
def ofDocument? (d : Document) : Option CodeUnit := do
  let f ← d.fields? .refused ["name", "vector", "module_hint", "previous", "oscillating"]
  return {
    name := ← f.optional "name" (optional? toText?) none
    vector := ← f.required "vector" (ComplexityVector.ofDocument? .refused)
    hint := ← f.optional "module_hint" ModuleType.ofDocument? .unknown
    previous := ← f.optional "previous" (optional? Measurement.ofDocument?) none
    oscillating := ← f.optional "oscillating" toBool? false }

end CodeUnit

/-- The record of a report. A name and a convergence analysis are left out if there is none. -/
def UnitReport.toDocument (r : UnitReport) : Document :=
  table <|
    (r.name.map fun s => ("name", text s)).toList ++
      [("module_hint", r.hint.toDocument), ("module_type", r.moduleType.toDocument),
        ("best_fit", r.bestFit.toDocument), ("tensor", r.tensor.toDocument),
        ("level", r.level.toDocument), ("deviation", r.deviation.toDocument),
        ("decomposition", r.decomposition.toDocument),
        ("recommendations", list (r.recommendations.map Recommendation.toDocument))] ++
      (r.convergence.map fun c => ("convergence", c.toDocument)).toList

end CodeComplexity
