import CodeComplexity.Document.Toml.Quoted
import CodeComplexity.Document.Toml.Tables

/-!
# Statements in TOML

A text is a list of statements, one a line: headers, which open tables, and keys with values. Their
order matters only for what a key belongs to and what counts as named twice.
-/

namespace CodeComplexity.Document.Toml

/-- One statement; a path and a last key name what it is about. -/
inductive Statement
  /-- Opens a table. -/
  | table (path : List String) (key : String)
  /-- Opens a further table of an array of tables. -/
  | element (path : List String) (key : String)
  /-- Gives a key a value. -/
  | entry (path : List String) (key : String) (value : Document)

section Keys

/-- The characters of a key without quotes. -/
def isKeyChar (c : Char) : Bool := c.isAlphanum || c == '_' || c == '-'

def simpleKey? : List Char → Option (String × List Char)
  | '"' :: rest => (basic? rest).map fun (s, rest) => (String.ofList s, rest)
  | '\'' :: rest => (literal? rest).map fun (s, rest) => (String.ofList s, rest)
  | cs =>
    let key := cs.takeWhile isKeyChar
    if key.isEmpty then none else some (String.ofList key, cs.dropWhile isKeyChar)

/-- Keys between dots, with blanks around them, and the text after them; `bound` limits their
number. -/
def dottedKey? : (bound : Nat) → List Char → Option (List String × List Char)
  | 0, _ => none
  | bound + 1, cs => do
    let (k, rest) ← simpleKey? (skipBlank cs)
    match skipBlank rest with
    | '.' :: rest =>
      let (ks, rest) ← dottedKey? bound rest
      return (k :: ks, rest)
    | rest => return ([k], rest)

/-- Nesting stops short of this depth, that of values as well as that of dotted keys. -/
def depthLimit : Nat := 80

/-- A dotted key, taken apart into a path and its last part, and the text after it. -/
def key? (cs : List Char) : Option ((List String × String) × List Char) := do
  let (ks, rest) ← dottedKey? (depthLimit - 1) cs
  return ((ks.dropLast, ← ks.getLast?), rest)

end Keys

section Values

/-- The text after blanks, line ends and comments. A comment runs to a line end; `inComment` says
that one is under way. -/
def skipFiller (inComment : Bool) : List Char → Option (List Char)
  | [] => if inComment then none else some []
  | '\n' :: rest => skipFiller false rest
  | '\r' :: '\n' :: rest => skipFiller false rest
  | c :: rest =>
    if inComment then if isPrintable c then skipFiller true rest else none
    else if c = '#' then skipFiller true rest
    else if isBlank c then skipFiller false rest
    else some (c :: rest)

/-- The values of an array from its opening bracket, and the text after it. A comma may follow the
last one. -/
def arrayItems? (value : List Char → Option (Document × List Char)) :
    (bound : Nat) → List Char → Option (List Document × List Char)
  | 0, _ => none
  | bound + 1, cs => do
    match ← skipFiller false cs with
    | ']' :: rest => return ([], rest)
    | cs =>
      let (d, rest) ← value cs
      match ← skipFiller false rest with
      | ',' :: rest =>
        let (ds, rest) ← arrayItems? value bound rest
        return (d :: ds, rest)
      | ']' :: rest => return ([d], rest)
      | _ => none

/-- A key, an equals sign and a value. -/
def keyValue? (value : List Char → Option (Document × List Char)) (cs : List Char) :
    Option ((List String × String × Document) × List Char) := do
  let ((path, key), rest) ← key? cs
  let '=' :: rest := rest | none
  let (d, rest) ← value (skipBlank rest)
  return ((path, key, d), rest)

/-- The entries of an inline table, at least one, up to its closing brace. -/
def inlineEntries? (value : List Char → Option (Document × List Char)) :
    (bound : Nat) → List Char → Option (List (List String × String × Document) × List Char)
  | 0, _ => none
  | bound + 1, cs => do
    let (e, rest) ← keyValue? value cs
    match skipBlank rest with
    | ',' :: rest =>
      let (es, rest) ← inlineEntries? value bound rest
      return (e :: es, rest)
    | '\x7d' :: rest => return ([e], rest)
    | _ => none

/-- An inline table from its opening brace, and the text after it. It stays on one line. -/
def inline? (value : List Char → Option (Document × List Char)) (bound : Nat) (cs : List Char) :
    Option (Document × List Char) :=
  match skipBlank cs with
  | '\x7d' :: rest => some (.table [], rest)
  | cs => do
    let (es, rest) ← inlineEntries? value bound cs
    return (← inlineTable? es, rest)

/-- A value nested less deeply than `depth` and the text after it; `bound` limits the number of
items of each array and inline table. -/
def value? (bound : Nat) : (depth : Nat) → List Char → Option (Document × List Char)
  | _, '"' :: rest => (quoted? ('"' :: rest)).map fun (s, rest) => (.text s, rest)
  | _, '\'' :: rest => (quoted? ('\'' :: rest)).map fun (s, rest) => (.text s, rest)
  | depth + 1, '[' :: rest =>
    (arrayItems? (value? bound depth) bound rest).map fun (ds, rest) => (.list ds, rest)
  | depth + 1, '\x7b' :: rest => inline? (value? bound depth) bound rest
  | _, cs => scalar? cs

end Values

section Lines

/-- The text after the end of a statement: blanks, perhaps a comment, and a line end or the end of
the text. -/
def endLine? (cs : List Char) : Option (List Char) :=
  let rest := match skipBlank cs with
    | '#' :: rest => rest.dropWhile isPrintable
    | rest => rest
  if rest.isEmpty then some [] else afterLine? rest

/-- A header from its opening brackets, and the text after it. -/
def header? (cs : List Char) : Option (Statement × List Char) :=
  match cs with
  | '[' :: '[' :: rest => do
    let ((path, key), rest) ← key? rest
    let ']' :: ']' :: rest := rest | none
    return (.element path key, rest)
  | '[' :: rest => do
    let ((path, key), rest) ← key? rest
    let ']' :: rest := rest | none
    return (.table path key, rest)
  | _ => none

/-- The statements of a text; `bound` limits the number of its lines. -/
def statements? (size : Nat) : (bound : Nat) → List Char → Option (List Statement)
  | 0, _ => none
  | bound + 1, cs =>
    match skipBlank cs with
    | [] => some []
    | '#' :: rest => do statements? size bound (← endLine? ('#' :: rest))
    | '\n' :: rest => statements? size bound rest
    | '\r' :: rest => do statements? size bound (← afterLine? ('\r' :: rest))
    | '[' :: rest => do
      let (s, rest) ← header? ('[' :: rest)
      return s :: (← statements? size bound (← endLine? rest))
    | cs => do
      let ((path, key, d), rest) ← keyValue? (value? size (depthLimit - 1)) cs
      return .entry path key d :: (← statements? size bound (← endLine? rest))

end Lines

end CodeComplexity.Document.Toml
