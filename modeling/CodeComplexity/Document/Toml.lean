import CodeComplexity.Document.Toml.Statement

/-!
# Documents in TOML

A text is read into statements, and the statements are carried out one after the other on a table
under construction.
-/

namespace CodeComplexity.Document.Toml

/-- The tables built so far, and the path of the one that keys belong to. -/
structure State where
  entries : Entries
  current : List String

def State.step (s : State) : Statement → Option State
  | .table path key => do return ⟨← openTable path key s.entries, path ++ [key]⟩
  | .element path key => do return ⟨← openElement path key s.entries, path ++ [key]⟩
  | .entry path key d => do return ⟨← assignIn s.current path key d s.entries, s.current⟩

/-- The text without the mark of its byte order. -/
def dropByteOrderMark : List Char → List Char
  | '\ufeff' :: rest => rest
  | cs => cs

def read? (text : String) : Option Document := do
  let cs := dropByteOrderMark text.toList
  let size := cs.length + 1
  let statements ← statements? size size cs
  let s ← statements.foldlM State.step ⟨[], []⟩
  return .table (entriesToDocument s.entries)

end CodeComplexity.Document.Toml
