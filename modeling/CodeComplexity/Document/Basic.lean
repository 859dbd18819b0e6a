import CodeComplexity.PerDimension

/-!
# Documents

The tree that a configuration file or an exchanged record is read into, and the ways to look into
it. Two formats share the tree. They differ in what they can express (only one has `null`, only the
other has dates) and in what happens to the surplus elements of an array that stands for a record
or for a row of fixed length.
-/

namespace CodeComplexity

inductive Document
  | null
  | bool (b : Bool)
  | int (n : Int)
  | real (x : Float)
  | text (s : String)
  /-- A date or a time, as it was written. -/
  | date (written : String)
  | list (items : List Document)
  /-- Entries in the order they were written; a key may occur again. -/
  | table (entries : List (String × Document))
  /-- Well-formed text without a value: a number beyond the doubles, a string with half of a
  surrogate pair, a table keyed by such a string. It can only be passed over. -/
  | unreadable

/-- What a reader does with the elements of an array for which there is no place. -/
inductive Surplus
  | refused
  | ignored
  deriving DecidableEq, Repr

namespace Document

/-- Whole numbers of sixty-four bits without a sign stay below this. -/
def unsignedBound : Nat := 0x10000000000000000

/-- Whole numbers of sixty-four bits with a sign stay below this, and reach down to its negative. -/
def signedBound : Nat := 0x8000000000000000

/-- A number, whole or not. -/
def toFloat? : Document → Option Float
  | int n => some (Float.ofInt n)
  | real x => some x
  | _ => none

/-- A whole number from zero up to a bound that it stays below. -/
def toNatBelow? (bound : Nat) : Document → Option Nat
  | int (.ofNat n) => if n < bound then some n else none
  | _ => none

def toBool? : Document → Option Bool
  | bool b => some b
  | _ => none

def toText? : Document → Option String
  | text s => some s
  | _ => none

def toList? {α : Type} (read : Document → Option α) : Document → Option (List α)
  | list items => items.mapM read
  | _ => none

/-- The elements of an array that stands for a row of `n` values. -/
def row? (surplus : Surplus) (n : Nat) : Document → Option (List Document)
  | list items =>
    if items.length = n ∨ (surplus = .ignored ∧ n < items.length) then some (items.take n)
    else none
  | _ => none

/-- A value that may be missing: `null` says that it is. -/
def optional? {α : Type} (read : Document → Option α) : Document → Option (Option α)
  | null => some none
  | d => (read d).map some

/-- A name from a closed list: the string itself, or a table that maps it to `null`. -/
def named? {α : Type} (ofName? : String → Option α) : Document → Option α
  | text s => ofName? s
  | table [(s, null)] => ofName? s
  | _ => none

/-- The entries of a table whose values are read the same way. -/
def entries? {α : Type} (read : Document → Option α) : Document → Option (List (String × α))
  | table es => es.mapM fun e => (read e.2).map fun a => (e.1, a)
  | _ => none

/-- The values found for the fields of a record, by name. -/
abbrev Fields := List (String × Document)

/-- Looks a record's fields up by name, or by position in an array. A field may be missing from a
table but not occur twice; unknown keys are passed over. A date counts as a table of unknown
keys. -/
def fields? (surplus : Surplus) (names : List String) : Document → Option Fields
  | table es =>
    let known := es.filter fun e => names.contains e.1
    if (known.map (·.1)).Nodup then some known else none
  | list items =>
    if items.length ≤ names.length ∨ surplus = .ignored then some (names.zip items) else none
  | date _ => some []
  | _ => none

namespace Fields

def required {α : Type} (f : Fields) (name : String) (read : Document → Option α) : Option α := do
  read (← f.lookup name)

def optional {α : Type} (f : Fields) (name : String) (read : Document → Option α) (default : α) :
    Option α :=
  match f.lookup name with
  | some d => read d
  | none => some default

end Fields

def dimensionNames : List String := Dimension.all.map Dimension.name

/-- A record with one field for each dimension, every one required. -/
def perDimension? {α : Type} (surplus : Surplus) (read : Document → Option α) (d : Document) :
    Option (PerDimension α) := do
  let f ← d.fields? surplus dimensionNames
  (PerDimension.ofFn id).mapM? fun e => f.required e.name read

/-- A record with one field for each dimension, every one with a default. -/
def perDimensionOr? {α : Type} (surplus : Surplus) (read : Document → Option α)
    (default : PerDimension α) (d : Document) : Option (PerDimension α) := do
  let f ← d.fields? surplus dimensionNames
  (PerDimension.ofFn id).mapM? fun e => f.optional e.name read (default.get e)

/-- A number as it is written in a document: an infinity or a value that is no number has no form
there. -/
def ofFloat (x : Float) : Document := if x.isFinite then real x else null

def ofNat (n : Nat) : Document := int n

def ofPerDimension {α : Type} (write : α → Document) (v : PerDimension α) : Document :=
  table (Dimension.all.map fun d => (d.name, write (v.get d)))

end Document

end CodeComplexity
