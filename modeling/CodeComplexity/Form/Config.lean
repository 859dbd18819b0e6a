import CodeComplexity.Config
import CodeComplexity.Document.Json
import CodeComplexity.Document.Toml
import CodeComplexity.Form.Basic

/-!
# Exchanged forms: configurations

A configuration is read from TOML or JSON. Both formats go through the same document and the same
fields; they differ only in what becomes of surplus elements.
-/

namespace CodeComplexity

open Document

namespace Parameters

def toDocument (p : Parameters) : Document :=
  table [("epsilon", ofFloat p.epsilon), ("threshold", ofFloat p.threshold),
    ("weights", p.weights.toDocument)]

/-- Reads the weights; a missing one keeps its default. -/
def weights? (surplus : Surplus) : Document → Option ComplexityVector :=
  perDimensionOr? surplus toFloat? ComplexityVector.defaultWeights

/-- Reads the parameters; a missing one keeps its default. -/
def ofDocument? (surplus : Surplus) (d : Document) : Option Parameters := do
  let f ← d.fields? surplus ["epsilon", "threshold", "weights"]
  return {
    epsilon := ← f.optional "epsilon" toFloat? default.epsilon
    threshold := ← f.optional "threshold" toFloat? default.threshold
    weights := ← f.optional "weights" (weights? surplus) default.weights }

end Parameters

def matrixOverrideToDocument (m : InteractionMatrix Float) : Document :=
  table [("rows", m.toDocument)]

def matrixOverride? (surplus : Surplus) (d : Document) : Option (InteractionMatrix Float) := do
  let f ← d.fields? surplus ["rows"]
  f.required "rows" (InteractionMatrix.ofDocument? surplus)

namespace ProfileOverride

def toDocument (o : ProfileOverride) : Document :=
  ofPerDimension (fun i => (i.map Interval.toDocument).getD null) o

/-- Reads the replaced intervals, each of which may be missing. -/
def ofDocument? (surplus : Surplus) : Document → Option ProfileOverride :=
  perDimensionOr? surplus (optional? (Interval.ofDocument? surplus)) (PerDimension.const none)

end ProfileOverride

def NameMap.toDocument {α : Type} (write : α → Document) (m : NameMap α) : Document :=
  table (m.entries.map fun e => (e.1, write e.2))

/-- Reads a table of records of one kind; of several with one key the last counts. -/
def NameMap.ofDocument? {α : Type} (read : Document → Option α) (d : Document) :
    Option (NameMap α) :=
  (d.entries? read).map NameMap.ofList

namespace Config

def toDocument (c : Config) : Document :=
  table
    [("scoring", c.parameters.toDocument),
      ("matrices", c.matrices.toDocument matrixOverrideToDocument),
      ("profiles", c.profiles.toDocument ProfileOverride.toDocument),
      ("inference", table [("infer_unknown", bool c.inferUnknown)])]

/-- Reads the record that switches inference on or off; it is on unless it says otherwise. -/
def inference? (surplus : Surplus) (d : Document) : Option Bool := do
  let f ← d.fields? surplus ["infer_unknown"]
  f.optional "infer_unknown" toBool? default.inferUnknown

/-- Reads the record of a configuration; a missing part keeps its default. -/
def ofDocument? (surplus : Surplus) (d : Document) : Option Config := do
  let f ← d.fields? surplus ["scoring", "matrices", "profiles", "inference"]
  return {
    parameters := ← f.optional "scoring" (Parameters.ofDocument? surplus) default.parameters
    matrices := ← f.optional "matrices" (NameMap.ofDocument? (matrixOverride? surplus))
      default.matrices
    profiles := ← f.optional "profiles" (NameMap.ofDocument? (ProfileOverride.ofDocument? surplus))
      default.profiles
    inferUnknown := ← f.optional "inference" (inference? surplus) default.inferUnknown }

def surplusIn : ConfigFormat → Surplus
  | .toml => .ignored
  | .json => .refused

end Config

/-- What takes texts to documents, format by format. Which texts are well formed, and which double a
decimal in them stands for, is up to it. -/
structure ConfigReader where
  toml? : String → Option Document
  json? : String → Option Document

namespace ConfigReader

/-- The grammars of the two formats, with decimals read to the nearest double. -/
def standard : ConfigReader := ⟨Toml.read?, Json.read?⟩

variable (r : ConfigReader)

def document? : ConfigFormat → String → Option Document
  | .toml => r.toml?
  | .json => r.json?

/-- Reads a text without checking what it says. -/
def read (format : ConfigFormat) (content : String) : Except ConfigError Config :=
  match (r.document? format content).bind (Config.ofDocument? (Config.surplusIn format)) with
  | some c => .ok c
  | none => .error (.malformed format)

/-- Reads a text and checks what it says. -/
def parse (format : ConfigFormat) (content : String) : Except ConfigError Config := do
  let c ← r.read format content
  c.validate
  return c

end ConfigReader

namespace Config

def read : ConfigFormat → String → Except ConfigError Config := ConfigReader.standard.read

def parse : ConfigFormat → String → Except ConfigError Config := ConfigReader.standard.parse

end Config

end CodeComplexity
