import CodeComplexity.BestFit
import CodeComplexity.Config
import CodeComplexity.ConfigError
import CodeComplexity.Convergence
import CodeComplexity.Decimal.Nearest
import CodeComplexity.Decimal.Shortest
import CodeComplexity.Decimal.Style
import CodeComplexity.Decomposition
import CodeComplexity.Deviation
import CodeComplexity.Dimension
import CodeComplexity.Directory
import CodeComplexity.Distance
import CodeComplexity.Document.Basic
import CodeComplexity.Document.Json
import CodeComplexity.Document.Toml
import CodeComplexity.Document.Toml.Quoted
import CodeComplexity.Document.Toml.Scalar
import CodeComplexity.Document.Toml.Statement
import CodeComplexity.Document.Toml.Tables
import CodeComplexity.DoubleBits
import CodeComplexity.Engine
import CodeComplexity.Form.Basic
import CodeComplexity.Form.Config
import CodeComplexity.Form.Result
import CodeComplexity.Form.Unit
import CodeComplexity.History
import CodeComplexity.InteractionMatrix
import CodeComplexity.Level
import CodeComplexity.ModuleType
import CodeComplexity.NameMap
import CodeComplexity.PerDimension
import CodeComplexity.Profile
import CodeComplexity.Proofs.BestFit
import CodeComplexity.Proofs.ByteOrder
import CodeComplexity.Proofs.Centroid
import CodeComplexity.Proofs.Config.Form
import CodeComplexity.Proofs.Config.Parameters
import CodeComplexity.Proofs.Config.Refusal
import CodeComplexity.Proofs.Config.Registry
import CodeComplexity.Proofs.Config.Shape
import CodeComplexity.Proofs.Config.Validity
import CodeComplexity.Proofs.Convergence
import CodeComplexity.Proofs.Convergence.Order
import CodeComplexity.Proofs.Convergence.Reported
import CodeComplexity.Proofs.Deviation
import CodeComplexity.Proofs.Deviation.Bounds
import CodeComplexity.Proofs.Deviation.Magnitude
import CodeComplexity.Proofs.Directory
import CodeComplexity.Proofs.Distance
import CodeComplexity.Proofs.Document
import CodeComplexity.Proofs.Document.Part
import CodeComplexity.Proofs.Dominance
import CodeComplexity.Proofs.Double.Alike
import CodeComplexity.Proofs.Double.Arithmetic
import CodeComplexity.Proofs.Double.Difference
import CodeComplexity.Proofs.Double.Error
import CodeComplexity.Proofs.Double.Mantissa
import CodeComplexity.Proofs.Double.Monotone
import CodeComplexity.Proofs.Double.Nearest
import CodeComplexity.Proofs.Double.Number
import CodeComplexity.Proofs.Double.Operations
import CodeComplexity.Proofs.Double.Opposite
import CodeComplexity.Proofs.Double.Order
import CodeComplexity.Proofs.Double.Plain
import CodeComplexity.Proofs.Double.Range
import CodeComplexity.Proofs.Double.Signed
import CodeComplexity.Proofs.Double.Summation
import CodeComplexity.Proofs.Double.TotalOrder
import CodeComplexity.Proofs.Double.Underflow
import CodeComplexity.Proofs.Double.Unpacked
import CodeComplexity.Proofs.Double.Value
import CodeComplexity.Proofs.Engine.Analysis
import CodeComplexity.Proofs.Engine.Construction
import CodeComplexity.Proofs.Engine.Isolation
import CodeComplexity.Proofs.Engine.Overflow
import CodeComplexity.Proofs.Engine.ReadBack
import CodeComplexity.Proofs.Engine.Reload
import CodeComplexity.Proofs.Extrema
import CodeComplexity.Proofs.Form
import CodeComplexity.Proofs.History
import CodeComplexity.Proofs.LeastSquares
import CodeComplexity.Proofs.NameMap
import CodeComplexity.Proofs.NearestType
import CodeComplexity.Proofs.Numbers
import CodeComplexity.Proofs.Oscillation
import CodeComplexity.Proofs.RawSum
import CodeComplexity.Proofs.Recommendation
import CodeComplexity.Proofs.Recommendation.Leading
import CodeComplexity.Proofs.Recommendation.Urgency
import CodeComplexity.Proofs.Registry.Faults
import CodeComplexity.Proofs.Registry.Overrides
import CodeComplexity.Proofs.Registry.Validity
import CodeComplexity.Proofs.Replay
import CodeComplexity.Proofs.Rounding
import CodeComplexity.Proofs.Rounding.Laws
import CodeComplexity.Proofs.Scan
import CodeComplexity.Proofs.Score
import CodeComplexity.Proofs.Score.Strength
import CodeComplexity.Proofs.Symmetry
import CodeComplexity.Proofs.Verdict
import CodeComplexity.Proofs.WeightedTotal
import CodeComplexity.Recommendation
import CodeComplexity.Registry
import CodeComplexity.Rounding
import CodeComplexity.Score
import CodeComplexity.Shipped
import CodeComplexity.Text.Hidden
import CodeComplexity.Text.Quoted
import CodeComplexity.Vector
