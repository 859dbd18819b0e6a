import CodeComplexity.Document.Toml.Scalar

/-!
# Quoted strings in TOML

Strings between double quotes know escapes, those between single quotes do not. Three quotes open a
string that may run over several lines; its line ends are read as single line feeds.
-/

namespace CodeComplexity.Document.Toml

/-- Everything but control characters other than the tab. -/
def isPrintable (c : Char) : Bool := c == '\t' || (0x20 ≤ c.toNat && c.toNat != 0x7f)

def escape? : Char → Option Char
  | 'b' => some '\x08'
  | 't' => some '\t'
  | 'n' => some '\n'
  | 'f' => some '\x0c'
  | 'r' => some '\r'
  | '"' => some '"'
  | '\\' => some '\\'
  | _ => none

/-- The character with a number, if there is one. -/
def ofCode? (n : Nat) : Option Char := if h : n.isValidChar then some (Char.ofNatAux n h) else none

/-- The character with a number of four hexadecimal digits. -/
def short? (a b c d : Char) : Option Char := do ofCode? (← Json.hexQuad? a b c d)

/-- The character with a number of eight hexadecimal digits. -/
def long? (a b c d e f g h : Char) : Option Char := do
  ofCode? (65536 * (← Json.hexQuad? a b c d) + (← Json.hexQuad? e f g h))

/-- The characters of a string in double quotes and the text after it, from its opening quote. -/
def basic? : List Char → Option (List Char × List Char)
  | [] => none
  | '"' :: rest => some ([], rest)
  | '\\' :: 'u' :: a :: b :: c :: d :: rest => do
    let x ← short? a b c d
    let (s, rest) ← basic? rest
    return (x :: s, rest)
  | '\\' :: 'U' :: a :: b :: c :: d :: e :: f :: g :: h :: rest => do
    let x ← long? a b c d e f g h
    let (s, rest) ← basic? rest
    return (x :: s, rest)
  | '\\' :: c :: rest => do
    let x ← escape? c
    let (s, rest) ← basic? rest
    return (x :: s, rest)
  | c :: rest => do
    if !isPrintable c then none
    let (s, rest) ← basic? rest
    return (c :: s, rest)

/-- The characters of a string in single quotes and the text after it, from its opening quote. -/
def literal? : List Char → Option (List Char × List Char)
  | [] => none
  | '\'' :: rest => some ([], rest)
  | c :: rest => do
    if !isPrintable c then none
    let (s, rest) ← literal? rest
    return (c :: s, rest)

/-- The text after a line end at its front. -/
def afterLine? : List Char → Option (List Char)
  | '\n' :: rest => some rest
  | '\r' :: '\n' :: rest => some rest
  | _ => none

/-- The quotes beyond the three that close a long string belong to it, but never more than two. -/
def closing (quote : Char) (rest : List Char) : List Char × List Char :=
  let extra := min 2 (rest.takeWhile (· == quote)).length
  (List.replicate extra quote, rest.drop extra)

/-- The characters of a long string in double quotes and the text after it. A backslash at the end
of a line drops everything blank up to the next character: `trimming` says that this is under
way. -/
def longBasic? (trimming : Bool) : List Char → Option (List Char × List Char)
  | [] => none
  | '"' :: '"' :: '"' :: rest => some (closing '"' rest)
  | '\r' :: '\n' :: rest => do
    let (s, rest) ← longBasic? trimming rest
    return (if trimming then s else '\n' :: s, rest)
  | '\n' :: rest => do
    let (s, rest) ← longBasic? trimming rest
    return (if trimming then s else '\n' :: s, rest)
  | '\\' :: 'u' :: a :: b :: c :: d :: rest => do
    let x ← short? a b c d
    let (s, rest) ← longBasic? false rest
    return (x :: s, rest)
  | '\\' :: 'U' :: a :: b :: c :: d :: e :: f :: g :: h :: rest => do
    let x ← long? a b c d e f g h
    let (s, rest) ← longBasic? false rest
    return (x :: s, rest)
  | '\\' :: c :: rest =>
    if (afterLine? (skipBlank (c :: rest))).isSome then longBasic? true (c :: rest)
    else do
      let x ← escape? c
      let (s, rest) ← longBasic? false rest
      return (x :: s, rest)
  | c :: rest => do
    if !isPrintable c then none
    let skipped := trimming && isBlank c
    let (s, rest) ← longBasic? skipped rest
    return (if skipped then s else c :: s, rest)

/-- The characters of a long string in single quotes and the text after it. -/
def longLiteral? : List Char → Option (List Char × List Char)
  | [] => none
  | '\'' :: '\'' :: '\'' :: rest => some (closing '\'' rest)
  | '\r' :: '\n' :: rest => do
    let (s, rest) ← longLiteral? rest
    return ('\n' :: s, rest)
  | '\n' :: rest => do
    let (s, rest) ← longLiteral? rest
    return ('\n' :: s, rest)
  | c :: rest => do
    if !isPrintable c then none
    let (s, rest) ← longLiteral? rest
    return (c :: s, rest)

/-- The text after a line end that follows the opening of a long string at once. -/
def skipFirstLine (cs : List Char) : List Char := (afterLine? cs).getD cs

/-- A quoted string of any kind and the text after it. -/
def quoted? : List Char → Option (String × List Char)
  | '"' :: '"' :: '"' :: rest =>
    (longBasic? false (skipFirstLine rest)).map fun (s, rest) => (String.ofList s, rest)
  | '\'' :: '\'' :: '\'' :: rest =>
    (longLiteral? (skipFirstLine rest)).map fun (s, rest) => (String.ofList s, rest)
  | '"' :: rest => (basic? rest).map fun (s, rest) => (String.ofList s, rest)
  | '\'' :: rest => (literal? rest).map fun (s, rest) => (String.ofList s, rest)
  | _ => none

end CodeComplexity.Document.Toml
