import ConfigText.Config.Fields
import ConfigText.Source

/-!
Settings of the program: the placeholder syntax and policy it uses by default, where it serves,
and how much it logs. They come from environment variables, or from values given one by one that
have to fit. While the program runs a setting can be changed to a value of any kind; whether it
fits shows where it is used.
-/

namespace ConfigText

inductive Setting
  | opener
  | closer
  | separator
  | lenient
  | maxDepth
  | host
  | port
  | debug
  /-- Origins that may call the server, or a star for all. -/
  | corsOrigins
  | logLevel
  deriving DecidableEq

namespace Setting

/-- All settings, in the order in which they are read. -/
def all : List Setting :=
  [opener, closer, separator, lenient, maxDepth, host, port, debug, corsOrigins, logLevel]

def name : Setting → Text
  | opener => "placeholder_prefix".toList
  | closer => "placeholder_suffix".toList
  | separator => "value_separator".toList
  | lenient => "ignore_unresolvable".toList
  | maxDepth => "max_depth".toList
  | host => "host".toList
  | port => "port".toList
  | debug => "debug".toList
  | corsOrigins => "cors_allow_origins".toList
  | logLevel => "log_level".toList

/-- The setting of a name. -/
def ofName? (name : Text) : Option Setting := all.find? (·.name == name)

/-- A value as one that fits the setting. -/
def fit (setting : Setting) (value : Value) : Field.Read Value :=
  match setting with
  | opener | closer | host | logLevel =>
    (Field.named setting.name (Field.text value)).map .text
  | separator => (Field.named setting.name (Field.textOrNull value)).map (·.elim .null .text)
  | lenient | debug => (Field.named setting.name (Field.bool value)).map .bool
  | maxDepth => (Field.named setting.name (Field.integerOrNull value)).map (·.elim .null .int)
  | port => (Field.named setting.name (Field.integer value)).map .int
  | corsOrigins => (Field.textList setting.name value).map fun texts => .list (texts.map .text)

end Setting

/-- The values of all settings. -/
structure Settings where
  get : Setting → Value

namespace Settings

/-- The settings in an empty environment. -/
def default : Settings where
  get
    | .opener => .text ['$', '{']
    | .closer => .text ['}']
    | .separator => .text [':']
    | .lenient => .bool true
    | .maxDepth => .null
    | .host => .text "127.0.0.1".toList
    | .port => .int 8000
    | .debug => .bool false
    | .corsOrigins => .list [.text ['*']]
    | .logLevel => .text "INFO".toList

/-- The word `true` in any case. No letter outside the basic alphabet has one of its letters as
lower case. -/
def isTrue (word : Text) : Bool := Text.lowerBasic word == "true".toList

/-- The settings that variables describe. The limit is read before the port; an empty separator or
limit counts as none. -/
def ofEnvironment (env : Environment) : Except IntegerFault Settings := do
  let value? (name : String) : Option Text := env.find? name.toList
  let filled? (name : String) : Option Text := (value? name).filter (!·.isEmpty)
  let maxDepth ← (filled? "PLACEHOLDER_MAX_DEPTH").mapM Number.readInteger
  let port ← (value? "PORT").mapM Number.readInteger
  let described (setting : Setting) : Option Value :=
    match setting with
    | .opener => (value? "PLACEHOLDER_PREFIX").map .text
    | .closer => (value? "PLACEHOLDER_SUFFIX").map .text
    | .separator =>
      (value? "VALUE_SEPARATOR").map fun mark => if mark.isEmpty then .null else .text mark
    | .lenient => (value? "IGNORE_UNRESOLVABLE").map fun word => .bool (isTrue word)
    | .maxDepth => maxDepth.map .int
    | .host => (value? "HOST").map .text
    | .port => port.map .int
    | .debug => (value? "DEBUG").map fun word => .bool (isTrue word)
    | .corsOrigins =>
      (filled? "CORS_ALLOW_ORIGINS").map fun origins =>
        .list ((Text.splitAtChar ',' origins).map .text)
    | .logLevel => (value? "LOG_LEVEL").map .text
  return ⟨fun setting => (described setting).getD (default.get setting)⟩

/-- The settings with one changed to any value. -/
def change (settings : Settings) (setting : Setting) (value : Value) : Settings where
  get other := if other = setting then value else settings.get other

/-- The settings with some given, which have to fit. -/
def withGiven (settings : Settings) (given : Properties) : Field.Read Settings :=
  let read (setting : Setting) : Option (Field.Read Value) :=
    (given.find? (.text setting.name)).map setting.fit
  match Setting.all.flatMap fun setting => (read setting).elim [] Field.complaints with
  | [] =>
    .ok ⟨fun setting =>
      ((read setting).bind Except.toOption).getD (settings.get setting)⟩
  | complaints => .error complaints

/-- The settings as fields of a configuration. -/
def fields (settings : Settings) : ConfigFields where
  opener := some (settings.get .opener)
  closer := some (settings.get .closer)
  separator := some (settings.get .separator)
  lenient := some (settings.get .lenient)
  maxDepth := some (settings.get .maxDepth)

/-- The configuration that the settings describe, with some fields written over. -/
def config (settings : Settings) (overrides : ConfigFields) : Except ConfigFault Config :=
  Config.ofFields (settings.fields.override overrides)

end Settings
end ConfigText
