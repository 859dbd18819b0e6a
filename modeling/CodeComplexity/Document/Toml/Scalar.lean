import CodeComplexity.Decimal.Nearest
import CodeComplexity.Document.Json

/-!
# Scalar values in TOML

Truth values, numbers, dates and times. Each is an unbroken run of letters, digits and a few marks,
so a whole run is taken first and then has to be one of them; only a date may be followed by a
space and a time.
-/

namespace CodeComplexity.Document.Toml

/-- Spaces and tabs. -/
def isBlank (c : Char) : Bool := c == ' ' || c == '\t'

def skipBlank (cs : List Char) : List Char := cs.dropWhile isBlank

/-- The characters of unquoted scalars. -/
def isScalarChar (c : Char) : Bool :=
  c.isAlphanum || c == '_' || c == '+' || c == '-' || c == '.' || c == ':'

section Numbers

/-- Digits with single underscores between them, the underscores left out. -/
def grouped? (isDigit : Char → Bool) : List Char → Option (List Char)
  | [] => none
  | [c] => if isDigit c then some [c] else none
  | c :: '_' :: rest => do
    if !isDigit c then none
    return c :: (← grouped? isDigit rest)
  | c :: rest => do
    if !isDigit c then none
    return c :: (← grouped? isDigit rest)

/-- A sign, where none means a positive one, and the text after it. -/
def sign (cs : List Char) : Bool × List Char :=
  match cs with
  | '-' :: rest => (true, rest)
  | '+' :: rest => (false, rest)
  | rest => (false, rest)

/-- The digits of a whole number without sign, which starts with a zero only if it is zero. -/
def wholeDigits? (cs : List Char) : Option (List Char) :=
  if cs.head? = some '0' ∧ 1 < cs.length then none else grouped? Char.isDigit cs

/-- A whole number of sixty-four bits. -/
def ofInt? (n : Int) : Option Document :=
  if -signedBound ≤ n ∧ n < signedBound then some (int n) else none

/-- Digits of another base after its mark. -/
def based? (base : Nat) (cs : List Char) : Option Document := do
  let isDigit (c : Char) := (Json.hexValue? c).any fun d => decide (d < base)
  let ds ← grouped? isDigit cs
  ofInt? (ds.foldl (fun n c => base * n + (Json.hexValue? c).getD 0) 0)

def integer? (cs : List Char) : Option Document :=
  match cs with
  | '0' :: 'x' :: rest => based? 16 rest
  | '0' :: 'o' :: rest => based? 8 rest
  | '0' :: 'b' :: rest => based? 2 rest
  | _ => do
    let (negative, rest) := sign cs
    let n := Decimal.natOfDigits (← wholeDigits? rest)
    ofInt? (if negative then -n else n)

/-- The two parts around the first of some marks; the second is missing without a mark. -/
def splitAt (isMark : Char → Bool) (cs : List Char) : List Char × Option (List Char) :=
  match cs.dropWhile (fun c => !isMark c) with
  | [] => (cs, none)
  | _ :: rest => (cs.takeWhile (fun c => !isMark c), some rest)

/-- The power of ten after an exponent mark. -/
def power? : Option (List Char) → Option Int
  | none => some 0
  | some cs => do
    let (negative, rest) := sign cs
    let n := Decimal.natOfDigits (← grouped? Char.isDigit rest)
    return if negative then -n else n

/-- The digits after a point. -/
def places? : Option (List Char) → Option (List Char)
  | none => some []
  | some cs => grouped? Char.isDigit cs

/-- A number with a point, an exponent or both. Of the numbers beyond the doubles only the negative
ones are taken, for negative infinity. -/
def decimal? (cs : List Char) : Option Document := do
  let (negative, rest) := sign cs
  let (front, exponent) := splitAt (fun c => c == 'e' || c == 'E') rest
  let (digits, fraction) := splitAt (· == '.') front
  if exponent.isNone && fraction.isNone then none
  let ds ← wholeDigits? digits
  let places ← places? fraction
  let power ← power? exponent
  let x := Decimal.nearest (Decimal.natOfDigits (ds ++ places)) (power - places.length)
  if negative then some (real (-x)) else if x.isInf then none else some (real x)

/-- An infinity or the value that is no number, by name. -/
def special? (cs : List Char) : Option Document :=
  let (negative, rest) := sign cs
  if rest = ['i', 'n', 'f'] then
    some (real (if negative then -Decimal.infinity else Decimal.infinity))
  else if rest = ['n', 'a', 'n'] then some (real (0.0 / 0.0))
  else none

end Numbers

section Dates

/-- The value of exactly `n` digits at the front, and the text after them. -/
def fixed? (n : Nat) (cs : List Char) : Option (Nat × List Char) :=
  let ds := cs.take n
  if ds.length = n ∧ ds.all Char.isDigit then some (Decimal.natOfDigits ds, cs.drop n) else none

def daysIn (year month : Nat) : Nat :=
  if month = 2 then
    if year % 4 = 0 ∧ (year % 100 ≠ 0 ∨ year % 400 = 0) then 29 else 28
  else if month = 4 ∨ month = 6 ∨ month = 9 ∨ month = 11 then 30
  else 31

/-- The text after a day of the calendar. -/
def afterDate? (cs : List Char) : Option (List Char) := do
  let (year, rest) ← fixed? 4 cs
  let '-' :: rest := rest | none
  let (month, rest) ← fixed? 2 rest
  let '-' :: rest := rest | none
  let (day, rest) ← fixed? 2 rest
  if 1 ≤ month ∧ month ≤ 12 ∧ 1 ≤ day ∧ day ≤ daysIn year month then some rest else none

/-- The text after hours and minutes. -/
def afterMinutes? (cs : List Char) : Option (List Char) := do
  let (hour, rest) ← fixed? 2 cs
  let ':' :: rest := rest | none
  let (minute, rest) ← fixed? 2 rest
  if hour < 24 ∧ minute < 60 then some rest else none

/-- The text after a time of day, which has seconds and may have a fraction of one. -/
def afterTime? (cs : List Char) : Option (List Char) := do
  let rest ← afterMinutes? cs
  let ':' :: rest := rest | none
  let (second, rest) ← fixed? 2 rest
  if 60 < second then none
  match rest with
  | '.' :: rest => (Json.digits? rest).map (·.2)
  | rest => some rest

/-- Whether a text is empty or an offset from universal time. -/
def isOffset (cs : List Char) : Bool :=
  match cs with
  | [] => true
  | ['Z'] => true
  | ['z'] => true
  | c :: rest => (c == '+' || c == '-') && afterMinutes? rest == some []

/-- Whether a text is a time of day with or without an offset. -/
def isTime (cs : List Char) : Bool := (afterTime? cs).any isOffset

/-- Whether a text is a day, a time of day, or both with a `T` between them. -/
def isDate (cs : List Char) : Bool :=
  match afterDate? cs with
  | some [] => true
  | some (c :: rest) => (c == 'T' || c == 't') && isTime rest
  | none => afterTime? cs == some []

end Dates

/-- The value of an unquoted run of characters. -/
def ofRun? (cs : List Char) : Option Document :=
  if cs = ['t', 'r', 'u', 'e'] then some (bool true)
  else if cs = ['f', 'a', 'l', 's', 'e'] then some (bool false)
  else if isDate cs then some (date (String.ofList cs))
  else special? cs <|> decimal? cs <|> integer? cs

/-- An unquoted value and the text after it. A day may be followed by a space and a time. -/
def scalar? (cs : List Char) : Option (Document × List Char) :=
  let run := cs.takeWhile isScalarChar
  let rest := cs.dropWhile isScalarChar
  match afterDate? run, rest with
  | some [], ' ' :: c :: after =>
    if c.isDigit then
      let time := (c :: after).takeWhile isScalarChar
      if isTime time then
        some (date (String.ofList (run ++ ' ' :: time)), (c :: after).dropWhile isScalarChar)
      else none
    else some (date (String.ofList run), rest)
  | _, _ => (ofRun? run).map fun d => (d, rest)

end CodeComplexity.Document.Toml
