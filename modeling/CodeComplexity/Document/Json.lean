import CodeComplexity.Decimal.Nearest
import CodeComplexity.Decimal.Style
import CodeComplexity.Document.Basic

/-!
# Documents in JSON

Reading follows the grammar to the letter: no comments, no trailing commas, no leading zeros, and
nothing but blanks around the one value. A document may be nested to any depth, so the recursion
is bounded by the length of the text.
-/

namespace CodeComplexity.Document.Json

/-- Spaces, tabs and the two characters that end lines. -/
def isBlank (c : Char) : Bool := c == ' ' || c == '\t' || c == '\n' || c == '\r'

def skipBlank (cs : List Char) : List Char := cs.dropWhile isBlank

section Strings

def hexValue? (c : Char) : Option Nat :=
  if '0' ≤ c ∧ c ≤ '9' then some (c.toNat - '0'.toNat)
  else if 'a' ≤ c ∧ c ≤ 'f' then some (c.toNat - 'a'.toNat + 10)
  else if 'A' ≤ c ∧ c ≤ 'F' then some (c.toNat - 'A'.toNat + 10)
  else none

def hexQuad? (a b c d : Char) : Option Nat := do
  return 4096 * (← hexValue? a) + 256 * (← hexValue? b) + 16 * (← hexValue? c) + (← hexValue? d)

/-- The code point that an escape of one letter stands for. -/
def escape? : Char → Option Nat
  | '"' => some 0x22
  | '\\' => some 0x5c
  | '/' => some 0x2f
  | 'b' => some 0x08
  | 'f' => some 0x0c
  | 'n' => some 0x0a
  | 'r' => some 0x0d
  | 't' => some 0x09
  | _ => none

/-- The rest of a string after its opening quote, as code points and halves of surrogate pairs, and
the text after its closing quote. -/
def stringUnits : List Char → Option (List Nat × List Char)
  | [] => none
  | '"' :: rest => some ([], rest)
  | '\\' :: 'u' :: a :: b :: c :: d :: rest => do
    let u ← hexQuad? a b c d
    let (us, rest) ← stringUnits rest
    return (u :: us, rest)
  | '\\' :: e :: rest => do
    let u ← escape? e
    let (us, rest) ← stringUnits rest
    return (u :: us, rest)
  | c :: rest => do
    if c.toNat < 0x20 then none
    let (us, rest) ← stringUnits rest
    return (c.toNat :: us, rest)

/-- Whether a unit is the first half of a surrogate pair. -/
def isHigh (u : Nat) : Bool := 0xd800 ≤ u && u < 0xdc00

/-- Whether a unit is the second half of a surrogate pair. -/
def isLow (u : Nat) : Bool := 0xdc00 ≤ u && u < 0xe000

/-- Joins surrogate pairs; a half that stands alone has no character. -/
def joinUnits : List Nat → Option (List Char)
  | [] => some []
  | [u] => if isHigh u || isLow u then none else some [Char.ofNat u]
  | u :: v :: rest =>
    if isHigh u && isLow v then
      (joinUnits rest).map (Char.ofNat (0x10000 + (u - 0xd800) * 0x400 + (v - 0xdc00)) :: ·)
    else if isHigh u || isLow u then none
    else (joinUnits (v :: rest)).map (Char.ofNat u :: ·)

/-- A string after its opening quote, if all its characters exist, and the text after it. -/
def string? (cs : List Char) : Option (Option String × List Char) := do
  let (units, rest) ← stringUnits cs
  return ((joinUnits units).map String.ofList, rest)

end Strings

section Numbers

/-- A run of digits, which may not be empty, and the text after it. -/
def digits? (cs : List Char) : Option (List Char × List Char) :=
  let ds := cs.takeWhile Char.isDigit
  if ds.isEmpty then none else some (ds, cs.dropWhile Char.isDigit)

/-- The digits after a point, if there is one. -/
def fraction? : List Char → Option (Option (List Char) × List Char)
  | '.' :: rest => do
    let (ds, rest) ← digits? rest
    return (some ds, rest)
  | cs => some (none, cs)

/-- The power of ten after an exponent mark, if there is one. -/
def exponent? : List Char → Option (Option Int × List Char)
  | c :: rest =>
    if c = 'e' ∨ c = 'E' then
      match rest with
      | '-' :: rest => do
        let (ds, rest) ← digits? rest
        return (some (-(Decimal.natOfDigits ds : Int)), rest)
      | '+' :: rest => do
        let (ds, rest) ← digits? rest
        return (some (Decimal.natOfDigits ds : Int), rest)
      | rest => do
        let (ds, rest) ← digits? rest
        return (some (Decimal.natOfDigits ds : Int), rest)
    else some (none, c :: rest)
  | [] => some (none, [])

/-- A double with a sign, unless it is beyond the doubles. -/
def signed (negative : Bool) (x : Float) : Document :=
  if x.isFinite then real (if negative then -x else x) else unreadable

/-- A literal without point and exponent. It is a whole number if it fits sixty-four bits; a
negative zero is a double, since whole numbers have only one zero. -/
def whole (negative : Bool) (n : Nat) : Document :=
  if negative then
    if n = 0 ∨ signedBound < n then signed true (Decimal.nearest n 0) else int (-n)
  else if n < unsignedBound then int n
  else signed false (Decimal.nearest n 0)

/-- A number after its sign, and the text after it. A decimal stands for the double nearest to it.
Readers that scale the digits by a rounded power of ten can miss that double by one unit in the last
place, and refuse a decimal next to the largest double. -/
def number? (negative : Bool) (cs : List Char) : Option (Document × List Char) := do
  let (ds, rest) ← digits? cs
  if ds.head? = some '0' ∧ 1 < ds.length then none
  let (fraction, rest) ← fraction? rest
  let (exponent, rest) ← exponent? rest
  match fraction, exponent with
  | none, none => return (whole negative (Decimal.natOfDigits ds), rest)
  | _, _ =>
    let places := fraction.getD []
    let power := exponent.getD 0 - places.length
    return (signed negative (Decimal.nearest (Decimal.natOfDigits (ds ++ places)) power), rest)

end Numbers

section Values

/-- The text after a word that has to stand at its front. -/
def word? : List Char → List Char → Option (List Char)
  | [], cs => some cs
  | w :: ws, c :: cs => if w = c then word? ws cs else none
  | _ :: _, [] => none

/-- At least one item, further ones after commas, up to a closing mark; `bound` limits their
number. -/
def items? {α : Type} (item : List Char → Option (α × List Char)) (close : Char) :
    (bound : Nat) → List Char → Option (List α × List Char)
  | 0, _ => none
  | bound + 1, cs => do
    let (a, rest) ← item cs
    match skipBlank rest with
    | ',' :: rest =>
      let (as, rest) ← items? item close bound rest
      return (a :: as, rest)
    | c :: rest => if c = close then some ([a], rest) else none
    | [] => none

/-- Items between commas up to a closing mark, perhaps none. -/
def sequence? {α : Type} (item : List Char → Option (α × List Char)) (close : Char) (bound : Nat)
    (cs : List Char) : Option (List α × List Char) :=
  match skipBlank cs with
  | [] => none
  | c :: rest => if c = close then some ([], rest) else items? item close bound cs

/-- A key, a colon and a value. -/
def member? (value : List Char → Option (Document × List Char)) (cs : List Char) :
    Option ((Option String × Document) × List Char) := do
  let '"' :: rest := skipBlank cs | none
  let (key, rest) ← string? rest
  let ':' :: rest := skipBlank rest | none
  let (d, rest) ← value rest
  return ((key, d), rest)

/-- The table of some entries, which needs every key to be a proper string. -/
def ofEntries (es : List (Option String × Document)) : Document :=
  match es.mapM fun e => e.1.map fun k => (k, e.2) with
  | some es => table es
  | none => unreadable

/-- A value nested less deeply than `depth`, and the text after it; `bound` limits the number of
items of each list and table. -/
def value? (bound : Nat) : (depth : Nat) → List Char → Option (Document × List Char)
  | 0, _ => none
  | depth + 1, cs =>
    match skipBlank cs with
    | '"' :: rest => (string? rest).map fun (s, rest) => ((s.map text).getD unreadable, rest)
    | '[' :: rest => (sequence? (value? bound depth) ']' bound rest).map fun (ds, rest) =>
        (list ds, rest)
    | '\x7b' :: rest => (sequence? (member? (value? bound depth)) '\x7d' bound rest).map
        fun (es, rest) => (ofEntries es, rest)
    | 't' :: rest => (word? ['r', 'u', 'e'] rest).map fun rest => (bool true, rest)
    | 'f' :: rest => (word? ['a', 'l', 's', 'e'] rest).map fun rest => (bool false, rest)
    | 'n' :: rest => (word? ['u', 'l', 'l'] rest).map fun rest => (null, rest)
    | '-' :: rest => number? true rest
    | rest => number? false rest

def read? (text : String) : Option Document := do
  let cs := text.toList
  let (d, rest) ← value? (cs.length + 1) (cs.length + 1) cs
  if (skipBlank rest).isEmpty then some d else none

end Values

section Writing

/-- Doubles keep a point or an exponent, so that they stay apart from whole numbers. -/
def numberStyle : Decimal.Style where
  positional := fun power => decide (-5 ≤ power ∧ power < 16)
  keepsPoint := true
  plus := "+"
  tie := .toEven
  nan := "null"
  infinity := "null"

/-- A character inside a string: only quotes, backslashes and control characters are escaped. -/
def escaped (c : Char) : List Char :=
  match c with
  | '"' => ['\\', '"']
  | '\\' => ['\\', '\\']
  | '\x08' => ['\\', 'b']
  | '\x0c' => ['\\', 'f']
  | '\n' => ['\\', 'n']
  | '\r' => ['\\', 'r']
  | '\t' => ['\\', 't']
  | c =>
    if c.toNat < 0x20 then
      ['\\', 'u', '0', '0', Nat.digitChar (c.toNat / 16), Nat.digitChar (c.toNat % 16)]
    else [c]

def writeString (s : String) : String :=
  String.ofList ('"' :: s.toList.flatMap escaped ++ ['"'])

mutual

/-- The text of a document, without blanks. What JSON cannot express is written as `null`, a date
as the string it was read from. -/
def write : Document → String
  | null => "null"
  | bool b => if b then "true" else "false"
  | int n => toString n
  | real x => if x.isFinite then numberStyle.render x else "null"
  | text s => writeString s
  | date s => writeString s
  | list items => "[" ++ ",".intercalate (writeItems items) ++ "]"
  | table es => "\x7b" ++ ",".intercalate (writeEntries es) ++ "\x7d"
  | unreadable => "null"

def writeItems : List Document → List String
  | [] => []
  | d :: ds => write d :: writeItems ds

def writeEntries : List (String × Document) → List String
  | [] => []
  | (k, d) :: es => (writeString k ++ ":" ++ write d) :: writeEntries es

end

end Writing

end CodeComplexity.Document.Json
