import CodeComplexity.Decimal.Shortest

/-!
# Writing a double

A style decides everything about the text of a number that its shortest decimal leaves open.
-/

namespace CodeComplexity.Decimal

/-- The decisions of a number format. -/
structure Style where
  /-- Whether a number whose leading digit has this power of ten is written without exponent. -/
  positional : Int → Bool
  /-- Whether a whole number ends in a point and a zero. -/
  keepsPoint : Bool
  /-- What stands before the digits of an exponent that is not negative. -/
  plus : String
  /-- Which of two equally near decimals is taken. -/
  tie : Tie
  /-- The text of the value that is no number. -/
  nan : String
  /-- The text of infinity. -/
  infinity : String

def zeros (n : Nat) : List Char := List.replicate n '0'

/-- The digits with the point at its place and as many zeros as that takes. -/
def Digits.positionalText (d : Digits) (keepsPoint : Bool) : List Char :=
  let point := d.point.toNat
  if d.point ≤ 0 then ['0', '.'] ++ zeros (-d.point).toNat ++ d.digits
  else if d.digits.length ≤ point then
    d.digits ++ zeros (point - d.digits.length) ++ if keepsPoint then ['.', '0'] else []
  else d.digits.take point ++ '.' :: d.digits.drop point

/-- The first digit, the others after a point, and the power of ten. -/
def Digits.exponentText (d : Digits) (plus : String) : List Char :=
  let rest := d.digits.drop 1
  let power := d.point - 1
  d.digits.take 1 ++ (if rest.isEmpty then [] else '.' :: rest) ++ 'e' ::
    (if power < 0 then '-' :: Nat.toDigits 10 power.natAbs
      else plus.toList ++ Nat.toDigits 10 power.natAbs)

namespace Style

/-- The text of a double that is not below zero. -/
def magnitude (s : Style) (x : Float) : String :=
  if x == 0.0 then if s.keepsPoint then "0.0" else "0"
  else
    let d := (Magnitude.ofFloat x).shortest s.tie
    String.ofList <|
      if s.positional (d.point - 1) then d.positionalText s.keepsPoint
      else d.exponentText s.plus

def render (s : Style) (x : Float) : String :=
  if x.isNaN then s.nan
  else
    let sign := if DoubleBits.isNegative x then "-" else ""
    sign ++ if x.isInf then s.infinity else s.magnitude x

end Style

end CodeComplexity.Decimal
