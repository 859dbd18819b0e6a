import CodeComplexity.Decimal.Style
import CodeComplexity.ModuleType
import CodeComplexity.Profile
import CodeComplexity.Text.Quoted

/-!
# What can be wrong with a configuration

Scoring never fails; only a configuration can be wrong. An error names its cause, and `message`
words it.
-/

namespace CodeComplexity

/-- The formats a configuration is written in. -/
inductive ConfigFormat
  | toml
  | json
  deriving DecidableEq, Repr

namespace ConfigFormat

/-- The name of a format as it is written in messages. -/
def name : ConfigFormat → String
  | toml => "TOML"
  | json => "JSON"

end ConfigFormat

/-- The causes for which a configuration is refused. -/
inductive ConfigError
  /-- The text is not a document of its format, or not one that a configuration can be read from. -/
  | malformed (format : ConfigFormat)
  /-- A table is keyed by a name that is no module type. -/
  | unknownModuleType (name : String)
  /-- A matrix holds an infinity or a value that is no number. -/
  | nonFiniteEntry (moduleType : ModuleType) (row col : Dimension)
  /-- An entry of a matrix differs from the one across the diagonal. -/
  | asymmetricMatrix (moduleType : ModuleType) (row col : Dimension)
  /-- A diagonal entry of a matrix is not above zero. -/
  | nonPositiveDiagonal (moduleType : ModuleType) (place : Dimension) (value : Float)
  /-- An interval of a profile is not finite, or its ends are out of order. -/
  | improperInterval (moduleType : ModuleType) (dimension : Dimension) (interval : Interval)
  /-- A weight is not finite or below zero. -/
  | invalidWeight (dimension : Dimension) (value : Float)
  /-- The regularisation strength is not finite or below zero. -/
  | invalidEpsilon (value : Float)
  /-- The threshold is not finite or not above zero. -/
  | invalidThreshold (value : Float)
  deriving DecidableEq

namespace ConfigError

/-- Numbers in messages are never written with an exponent, and whole numbers without a point. -/
def numberStyle : Decimal.Style where
  positional := fun _ => true
  keepsPoint := false
  plus := ""
  tie := .up
  nan := "NaN"
  infinity := "inf"

def number (x : Float) : String := numberStyle.render x

def place (row col : Dimension) : String := s!"[{row.index}][{col.index}]"

def message : ConfigError → String
  | malformed f => s!"Failed to parse {f.name} config"
  | unknownModuleType name => "Unknown module type in config: " ++ Text.quoted name
  | nonFiniteEntry t i j => s!"Matrix for {t.name} has a non-finite entry at {place i j}"
  | asymmetricMatrix t i j => s!"Matrix for {t.name} is not symmetric at {place i j}"
  | nonPositiveDiagonal t d x =>
    s!"Matrix for {t.name} has non-positive diagonal entry {number x} at index {d.index}"
  | improperInterval t d i =>
    s!"Profile for {t.name} has invalid {d.name} bounds [{number i.min}, {number i.max}]"
  | invalidWeight d x => s!"Weight for {d.name} must be finite and non-negative, got {number x}"
  | invalidEpsilon x => s!"Epsilon must be finite and non-negative, got {number x}"
  | invalidThreshold x => s!"Threshold must be finite and positive, got {number x}"

end ConfigError

end CodeComplexity
