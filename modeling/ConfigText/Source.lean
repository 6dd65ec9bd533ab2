import ConfigText.EnvFile
import ConfigText.Environment
import ConfigText.Lookup
import ConfigText.Path

/-!
Sources of properties. A source has a name and answers from a table, from an env file or from the
environment, which is looked at when the source is asked.
-/

namespace ConfigText

/-- Why a source cannot be made. -/
inductive SourceFault
  | emptyName
  | missingFile (path : Path)
  /-- No file can have this path. -/
  | longPath (path : Path)
  deriving DecidableEq

def SourceFault.message : SourceFault → Text
  | emptyName => "Property source name must not be empty".toList
  | missingFile path => "Env file not found: ".toList ++ path.toText
  | longPath path => "[Errno 36] File name too long: ".toList ++ Text.quoted path.toText

/-- Where a source takes its values from. -/
inductive Origin
  | table (props : Properties)
  /-- Variables that stand in for the environment. -/
  | given (props : Properties)
  /-- The environment itself. -/
  | process
  | envFile (path : Path) (props : Properties)

structure Source where
  name : Text
  origin : Origin
  name_ne : name ≠ []

namespace EnvFile

/-- The properties of a file. -/
def Content.properties (content : Content) : Properties :=
  ⟨content.values.entries.map fun (key, value) => (.text key, value.elim .null .text)⟩

/-- The content of the file at a path. -/
def load (files : Files) (path : Path) : Except SourceFault Content :=
  match files path with
  | .file text => .ok (read text)
  | .nothing => .error (.missingFile path)
  | .tooLong => .error (.longPath path)

end EnvFile

namespace Source

def make (name : Text) (origin : Origin) : Except SourceFault Source :=
  if h : name = [] then .error .emptyName else .ok ⟨name, origin, h⟩

def ofProperties (name : Text) (props : Properties) : Except SourceFault Source :=
  make name (.table props)

/-- The name that a source over the environment has by default. -/
def environmentName : Text := "environment".toList

theorem environmentName_ne : environmentName ≠ [] := by decide

/-- A source over given variables, or over the environment. -/
def ofEnvironment (name : Text) (given : Option Properties) : Except SourceFault Source :=
  make name (given.elim .process .given)

/-- The name that a source over an env file has by default. -/
def envFileName (path : Path) : Text := "dotenv:".toList ++ path.toText

theorem envFileName_ne (path : Path) : envFileName path ≠ [] :=
  List.append_ne_nil_of_left_ne_nil (by decide) _

/-- A source over the content of an env file; an empty name counts as none. -/
def ofEnvFile (path : Path) (content : EnvFile.Content) (name : Option Text) : Source :=
  let origin := Origin.envFile path content.properties
  match name with
  | some (c :: rest) => ⟨c :: rest, origin, by simp⟩
  | _ => ⟨envFileName path, origin, envFileName_ne path⟩

variable (env : Environment) (source : Source)

/-- All properties of a source. -/
def properties : Properties :=
  match source.origin with
  | .table props => props
  | .given props => props
  | .process => ⟨env.entries.map fun (key, value) => (.text key, .text value)⟩
  | .envFile _ props => props

/-- The text that the value of a property is turned into. -/
def get? (name : Text) : Option Text := (source.properties env).shown? name

def contains (name : Text) : Bool := (source.get? env name).isSome

/-- The names of all properties, also of those without a value. -/
def propertyNames : List Text := (source.properties env).names

/-- The source as a lookup. -/
def lookup : Lookup := .ofFunction (source.get? env)

/-- The source with one property written over; the environment itself is left alone. -/
def put (name : Text) (value : Value) : Source :=
  let write (props : Properties) : Properties := props.insert (.text name) value
  match source.origin with
  | .table props => { source with origin := .table (write props) }
  | .given props => { source with origin := .given (write props) }
  | .process => source
  | .envFile path props => { source with origin := .envFile path (write props) }

def kind : Text :=
  match source.origin with
  | .table _ => "MapPropertySource".toList
  | .given _ | .process => "EnvironmentPropertySource".toList
  | .envFile _ _ => "DotenvPropertySource".toList

/-- The source in one line. -/
def shown : Text :=
  source.kind ++ "(name=".toList ++ Text.quoted source.name ++ ")".toList

@[simp] theorem put_name (name : Text) (value : Value) :
    (source.put name value).name = source.name := by
  unfold put
  split <;> rfl

end Source
end ConfigText
