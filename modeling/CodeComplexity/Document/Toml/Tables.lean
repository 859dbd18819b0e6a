import CodeComplexity.Document.Basic

/-!
# Tables under construction

A TOML text names its tables piecemeal, by headers and by dotted keys, and may not name one twice.
So a table remembers how it came about: a header opens a table once, even if it was passed on the
way to another before, and what dotted keys have made only dotted keys may extend. Values written
inline are closed.
-/

namespace CodeComplexity.Document.Toml

inductive Origin
  /-- A header opened it. -/
  | header
  /-- A header passed through it on the way to another table. -/
  | passage
  /-- A dotted key passed through it. -/
  | dotted
  deriving DecidableEq, Repr

/-- What a key of a table under construction holds. -/
inductive Node
  | value (d : Document)
  | table (origin : Origin) (entries : List (String × Node))
  /-- An array of tables: those that are finished, and the one that is open. -/
  | tables (finished : List (List (String × Node))) (current : List (String × Node))

abbrev Entries := List (String × Node)

/-- Changes what a key holds, where `none` is a free key. -/
def Entries.alter (k : String) (f : Option Node → Option Node) : Entries → Option Entries
  | [] => (f none).map fun n => [(k, n)]
  | (l, n) :: rest =>
    if l = k then (f (some n)).map fun n => (l, n) :: rest
    else (Entries.alter k f rest).map ((l, n) :: ·)

/-- Goes down a path and changes the table at its end. Missing tables on the way get the given
origin; `enters` says which tables may be entered, and values may not. -/
def descend (fresh : Origin) (enters : Origin → Bool) (change : Origin → Entries → Option Entries) :
    List String → Origin → Entries → Option Entries
  | [], origin, es => change origin es
  | k :: path, _, es => es.alter k fun
    | none => (descend fresh enters change path fresh []).map (.table fresh)
    | some (.value _) => none
    | some (.table origin es) =>
      if enters origin then (descend fresh enters change path origin es).map (.table origin)
      else none
    | some (.tables finished es) =>
      (descend fresh enters change path .header es).map (.tables finished)

/-- Goes down the path of a header and changes the table at its end. -/
def atHeader (change : Origin → Entries → Option Entries) (path : List String) (es : Entries) :
    Option Entries :=
  descend .passage (fun _ => true) change path .header es

def openTable (path : List String) (key : String) (es : Entries) : Option Entries :=
  atHeader (fun _ es => es.alter key fun
    | none => some (.table .header [])
    | some (.table .passage es) => some (.table .header es)
    | some _ => none) path es

/-- Opens a further table of an array of tables. -/
def openElement (path : List String) (key : String) (es : Entries) : Option Entries :=
  atHeader (fun _ es => es.alter key fun
    | none => some (.tables [] [])
    | some (.tables finished current) => some (.tables (finished ++ [current]) [])
    | some _ => none) path es

/-- Sets a dotted key, which must be free, in a table that was not opened by a header unless it is
the one the key starts from. -/
def assign (path : List String) (key : String) (d : Document) (es : Entries) : Option Entries :=
  descend .dotted (· != .header) (fun origin es =>
    if !path.isEmpty && origin != .dotted then none
    else es.alter key fun
      | none => some (.value d)
      | some _ => none) path .header es

/-- Sets a dotted key in the table of a header. -/
def assignIn (header path : List String) (key : String) (d : Document) (es : Entries) :
    Option Entries :=
  atHeader (fun _ es => assign path key d es) header es

mutual

def Node.toDocument : Node → Document
  | .value d => d
  | .table _ es => .table (entriesToDocument es)
  | .tables finished current =>
    .list (tablesToDocument finished ++ [.table (entriesToDocument current)])

def entriesToDocument : List (String × Node) → List (String × Document)
  | [] => []
  | (k, n) :: es => (k, n.toDocument) :: entriesToDocument es

def tablesToDocument : List (List (String × Node)) → List Document
  | [] => []
  | es :: rest => .table (entriesToDocument es) :: tablesToDocument rest

end

/-- The table that a list of dotted keys with values makes, each set in turn. -/
def inlineTable? (es : List (List String × String × Document)) : Option Document :=
  (es.foldlM (fun t (path, key, d) => assign path key d t) []).map fun t =>
    .table (entriesToDocument t)

end CodeComplexity.Document.Toml
