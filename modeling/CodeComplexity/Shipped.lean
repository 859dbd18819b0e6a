import CodeComplexity.InteractionMatrix
import CodeComplexity.ModuleType
import CodeComplexity.Profile

/-!
# The shipped matrices and profiles

Thresholds elsewhere were tuned against exactly these values, so none is adjusted to make a
diagonal dominant.
-/

namespace CodeComplexity.ModuleType

def shippedMatrix : ModuleType → InteractionMatrix Float
  -- state and coupling compound badly
  | api =>
    ⟨⟨1.0, 0.2, 0.3, 0.2, 0.4⟩, ⟨0.2, 1.0, 0.3, 0.6, 0.2⟩, ⟨0.3, 0.3, 1.0, 0.4, 1.5⟩,
      ⟨0.2, 0.6, 0.4, 1.0, 0.5⟩, ⟨0.4, 0.2, 1.5, 0.5, 1.0⟩⟩
  -- control and nesting matter most
  | lib =>
    ⟨⟨1.0, 1.2, 0.2, 0.2, 0.2⟩, ⟨1.2, 1.0, 0.3, 0.5, 0.2⟩, ⟨0.2, 0.3, 1.0, 0.3, 0.6⟩,
      ⟨0.2, 0.5, 0.3, 1.0, 0.3⟩, ⟨0.2, 0.2, 0.6, 0.3, 1.0⟩⟩
  -- state and async compound badly
  | app =>
    ⟨⟨1.0, 0.3, 0.3, 0.3, 0.3⟩, ⟨0.3, 1.0, 0.5, 0.9, 0.2⟩, ⟨0.3, 0.5, 1.0, 1.3, 0.7⟩,
      ⟨0.3, 0.9, 1.3, 1.0, 0.4⟩, ⟨0.3, 0.2, 0.7, 0.4, 1.0⟩⟩
  -- component trees make nesting weigh more
  | web =>
    ⟨⟨1.0, 0.5, 0.2, 0.4, 0.2⟩, ⟨0.5, 1.5, 0.3, 0.6, 0.2⟩, ⟨0.2, 0.3, 1.0, 0.3, 0.5⟩,
      ⟨0.4, 0.6, 0.3, 1.0, 0.3⟩, ⟨0.2, 0.2, 0.5, 0.3, 1.0⟩⟩
  -- entities make state weigh more
  | data =>
    ⟨⟨1.0, 0.2, 0.3, 0.1, 0.4⟩, ⟨0.2, 1.0, 0.2, 0.1, 0.2⟩, ⟨0.3, 0.2, 1.5, 0.2, 0.8⟩,
      ⟨0.1, 0.1, 0.2, 1.0, 0.2⟩, ⟨0.4, 0.2, 0.8, 0.2, 1.0⟩⟩
  -- input and output make async and coupling weigh more
  | infra =>
    ⟨⟨1.0, 0.2, 0.2, 0.3, 0.4⟩, ⟨0.2, 1.0, 0.2, 0.3, 0.2⟩, ⟨0.2, 0.2, 1.0, 0.4, 0.6⟩,
      ⟨0.3, 0.3, 0.4, 1.5, 0.8⟩, ⟨0.4, 0.2, 0.6, 0.8, 1.5⟩⟩
  -- interactions are minimal
  | deploy =>
    ⟨⟨1.0, 0.1, 0.1, 0.1, 0.2⟩, ⟨0.1, 1.0, 0.1, 0.1, 0.1⟩, ⟨0.1, 0.1, 1.0, 0.1, 0.3⟩,
      ⟨0.1, 0.1, 0.1, 1.0, 0.2⟩, ⟨0.2, 0.1, 0.3, 0.2, 1.0⟩⟩
  | unknown =>
    ⟨⟨1.0, 0.3, 0.2, 0.2, 0.3⟩, ⟨0.3, 1.0, 0.4, 0.8, 0.2⟩, ⟨0.2, 0.4, 1.0, 0.5, 0.9⟩,
      ⟨0.2, 0.8, 0.5, 1.0, 0.4⟩, ⟨0.3, 0.2, 0.9, 0.4, 1.0⟩⟩

def shippedProfile : ModuleType → Profile
  | api => .upTo ⟨5.0, 3.0, 2.0, 3.0, 3.0⟩
  | lib => .upTo ⟨10.0, 5.0, 2.0, 2.0, 2.0⟩
  | app => .upTo ⟨10.0, 5.0, 8.0, 8.0, 5.0⟩
  | web => .upTo ⟨8.0, 10.0, 5.0, 5.0, 3.0⟩
  | data => .upTo ⟨3.0, 2.0, 10.0, 2.0, 5.0⟩
  | infra => .upTo ⟨5.0, 3.0, 2.0, 8.0, 8.0⟩
  | deploy => .upTo ⟨3.0, 2.0, 2.0, 2.0, 3.0⟩
  | unknown => .upTo ⟨15.0, 10.0, 10.0, 10.0, 10.0⟩

end CodeComplexity.ModuleType
