import ConfigText.Settings
import ConfigText.Template

/-!
Help pages. A line on a switch tells its default, which comes from the settings. The line is a
template once the default is written into it, so a percent sign in a setting can break the page.
-/

namespace ConfigText.CommandLine

def programName : Text := "propsmith".toList

/-- A page of help: on the whole program or on one of its commands. -/
inductive HelpPage
  | main
  | resolve
  | parse
  | serve
  deriving DecidableEq

/-- What a page says of a switch. -/
structure HelpLine where
  switch : Text
  destination : Text
  description : Text
  default : Setting
  /-- The kind that values of the switch are read as, if not as text. -/
  kind : Value

namespace HelpLine

def ofText (switch destination description : String) (default : Setting) : HelpLine :=
  ⟨switch.toList, destination.toList, description.toList, default, .null⟩

variable (settings : Settings) (program : Text) (line : HelpLine)

/-- The template of the line. -/
def template : Text :=
  line.description ++ " (default: ".toList ++ (settings.get line.default).toText ++ [')']

/-- What the template can refer to. -/
def record : Template.Record := fun name =>
  [("option_strings", Template.Entry.value (.list [.text line.switch])),
    ("dest", .value (.text line.destination)), ("nargs", .value .null),
    ("const", .value .null), ("default", .value (settings.get line.default)),
    ("type", .value line.kind), ("choices", .value .null), ("required", .value (.bool false)),
    ("help", .value (.text (line.template settings))), ("metavar", .value .null),
    ("container", .object "_ArgumentGroup".toList), ("prog", .value (.text program))].findSome?
      fun (key, entry) => if key.toList = name then some entry else none

def fault? : Option Template.Fault :=
  Template.fault? (line.record settings program) (line.template settings)

end HelpLine

namespace HelpPage

/-- The name of the program or the command with it. -/
def program : HelpPage → Text
  | main => programName
  | resolve => programName ++ " resolve".toList
  | parse => programName ++ " parse".toList
  | serve => programName ++ " serve".toList

/-- The lines on how placeholders are written. -/
def markLines : List HelpLine :=
  [.ofText "--prefix" "prefix" "Placeholder prefix" .opener,
    .ofText "--suffix" "suffix" "Placeholder suffix" .closer,
    .ofText "--separator" "separator" "Separator between key and default value" .separator]

/-- The lines with defaults. -/
def lines : HelpPage → List HelpLine
  | main => [.ofText "--log-level" "log_level" "Logging level" .logLevel]
  | resolve => markLines
  | parse => markLines
  | serve =>
    [.ofText "--host" "host" "Host to bind to" .host,
      { HelpLine.ofText "--port" "port" "Port to bind to" .port with kind := .text "int".toList }]

/-- The first fault on the page. -/
def fault? (page : HelpPage) (settings : Settings) : Option Template.Fault :=
  page.lines.findSome? (·.fault? settings page.program)

end HelpPage
end ConfigText.CommandLine
