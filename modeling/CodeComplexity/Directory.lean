import CodeComplexity.Engine
import CodeComplexity.Form.Config

/-!
# Configuration directories

A directory may hold a configuration under either of two names. The first that can be read and
says nothing wrong is used; without one the shipped configuration is.
-/

namespace CodeComplexity

/-- What stands under a name in a directory. -/
inductive FileState
  | absent
  | directory
  /-- A file whose bytes are no text. -/
  | binary
  | text (content : String)
  deriving DecidableEq

namespace FileState

def ofBytes (bytes : ByteArray) : FileState :=
  match String.fromUTF8? bytes with
  | some content => text content
  | none => binary

/-- The text of a file, if it can be read. -/
def content? : FileState → Option String
  | text content => some content
  | _ => none

end FileState

/-- The two files of a directory that can hold a configuration. -/
structure Directory where
  toml : FileState
  json : FileState
  deriving DecidableEq

namespace Directory

/-- The name of the file that is looked at first. -/
def tomlName : String := "semantic-complexity.toml"

/-- The name of the file that is looked at next. -/
def jsonName : String := ".semantic-complexity.json"

end Directory

namespace ConfigReader

variable (r : ConfigReader)

/-- The configuration of a file, if it can be read and says nothing wrong. -/
def configOf? (format : ConfigFormat) (file : FileState) : Option Config := do
  (r.parse format (← file.content?)).toOption

def config (d : Directory) : Config :=
  (r.configOf? .toml d.toml <|> r.configOf? .json d.json).getD .default

end ConfigReader

def Directory.config : Directory → Config := ConfigReader.standard.config

namespace Engine

/-- The engine of the configuration that a directory holds. -/
def ofDirectoryWith (r : ConfigReader) (d : Directory) : Except ConfigError Engine :=
  ofConfig (r.config d)

def ofDirectory : Directory → Except ConfigError Engine := ofDirectoryWith .standard

end Engine

end CodeComplexity
