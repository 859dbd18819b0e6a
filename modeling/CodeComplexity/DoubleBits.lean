/-!
# The bits of a double

A double is a sign, an exponent of eleven bits and a fraction of fifty-two. This is the only place
where the fields are taken apart.
-/

namespace CodeComplexity.DoubleBits

def signBit : Nat := 0x8000000000000000

/-- The number of values of the fraction. -/
def fractionSize : Nat := 0x10000000000000

def isNegative (x : Float) : Bool := decide (signBit ≤ x.toBits.toNat)

def unsigned (x : Float) : Nat := x.toBits.toNat % signBit

def exponent (x : Float) : Nat := unsigned x / fractionSize

def fraction (x : Float) : Nat := unsigned x % fractionSize

/-- The bits of the value that is no number, as operations on numbers give it. -/
def plainNaN : UInt64 := 0x7ff8000000000000

/-- The bits of a double. Arithmetic leaves open which bits the value that is no number has, so they
are handed over. -/
def ofFloat (nan : UInt64) (x : Float) : UInt64 := if x.isNaN then nan else x.toBits

/-- The place of a pattern of bits in the total order of doubles. Patterns with the sign bit lie
below those without it, the farther below the larger the rest of them is. So a negative zero lies
just below the positive one, and what is no number beyond the infinities, on the side of its
sign. -/
def rank (bits : UInt64) : Int :=
  if signBit ≤ bits.toNat then -1 - ((bits.toNat % signBit : Nat) : Int) else bits.toNat

end CodeComplexity.DoubleBits
