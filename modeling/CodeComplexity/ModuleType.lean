/-!
# Module types

The architectural role of a module selects the interaction matrix and the profile its code is
judged by. Roles are named exactly; an unrecognised name falls back to `unknown` wherever a hint
is read, and is an error wherever a configuration names a role.
-/

namespace CodeComplexity

/-- The coarse architectural role of a module. -/
inductive ModuleType
  /-- Endpoints and thin controllers. -/
  | api
  /-- Reusable, pure code. -/
  | lib
  /-- Application logic and stateful services. -/
  | app
  /-- Components of a user interface. -/
  | web
  /-- Models, entities and schemas. -/
  | data
  /-- Repositories and external input and output. -/
  | infra
  /-- Scripts and configuration. -/
  | deploy
  /-- No recognised role. -/
  | unknown
  deriving DecidableEq, Repr

namespace ModuleType

/-- Every module type, in enumeration order. -/
def all : List ModuleType := [api, lib, app, web, data, infra, deploy, unknown]

/-- The recognised module types, in enumeration order. -/
def allKnown : List ModuleType := [api, lib, app, web, data, infra, deploy]

@[simp] theorem mem_all (t : ModuleType) : t ∈ all := by
  cases t <;> decide

theorem nodup_all : all.Nodup := by decide

@[simp] theorem mem_allKnown {t : ModuleType} : t ∈ allKnown ↔ t ≠ unknown := by
  cases t <;> decide

def index : ModuleType → Nat
  | api => 0
  | lib => 1
  | app => 2
  | web => 3
  | data => 4
  | infra => 5
  | deploy => 6
  | unknown => 7

def name : ModuleType → String
  | api => "api"
  | lib => "lib"
  | app => "app"
  | web => "web"
  | data => "data"
  | infra => "infra"
  | deploy => "deploy"
  | unknown => "unknown"

/-- The module type of a name, which has to match exactly. -/
def ofName? (s : String) : Option ModuleType := all.find? fun t => t.name == s

/-- The module type of a name; a name that is not recognised means `unknown`. -/
def ofName (s : String) : ModuleType := (ofName? s).getD unknown

@[simp] theorem ofName?_name (t : ModuleType) : ofName? t.name = some t := by
  cases t <;> decide

@[simp] theorem ofName_name (t : ModuleType) : ofName t.name = t := by simp [ofName]

theorem name_of_ofName? {s : String} {t : ModuleType} (h : ofName? s = some t) : t.name = s := by
  simpa using List.find?_some h

/-- Whether a module type is recognised. -/
def isKnown (t : ModuleType) : Bool := t != unknown

end ModuleType

end CodeComplexity
