import ConfigText.CommandLine.Invocation
import ConfigText.Json.Printer
import ConfigText.Log

/-!
The program run from the command line: it resolves or lists the placeholders of a text, or says
how a server is to be started.
-/

namespace ConfigText.CommandLine

/-- What the program is given besides its arguments. -/
structure World where
  settings : Settings
  env : Environment
  files : Files
  /-- The text to read where none is given. -/
  input : Text

inductive Output
  | text (text : Text)
  /-- A description of the program. -/
  | help
  deriving DecidableEq

/-- Why there is no chain for a command. -/
inductive ChainFault
  /-- There is no property at this position of those given one by one. -/
  | noAssignment (position : Nat)
  /-- There is no path where one is given. -/
  | noPath
  | source (fault : SourceFault)
  deriving DecidableEq

def ChainFault.message : ChainFault → Text
  | noAssignment position =>
    "dictionary update sequence element #".toList ++ Text.ofNat position
      ++ " has length 0; 2 is required".toList
  | noPath => "expected str, bytes or os.PathLike object, not list".toList
  | source fault => fault.message

/-- What stops the program without an exit code. -/
inductive Crash
  /-- There is no such log level. -/
  | unknownLevel (level : Text)
  /-- The log level is no text. -/
  | levelNotText (kind : Text)
  /-- The log level is bytes, as written here. -/
  | levelOfBytes (written : Text)
  /-- Values that make no configuration. -/
  | config (fault : ConfigFault)
  | chain (fault : ChainFault)
  /-- A help page that cannot be written. -/
  | help (fault : Template.Fault)
  /-- Resolving was cut off. -/
  | exhausted
  deriving DecidableEq

def Crash.message : Crash → Text
  | unknownLevel level => Log.unknownMessage level
  | levelNotText kind => "'".toList ++ kind ++ "' object has no attribute 'upper'".toList
  | levelOfBytes written => "Level not an integer or a valid string: ".toList ++ written
  | config fault => fault.message
  | chain fault => fault.message
  | help fault => fault.message
  | exhausted => []

/-- How the program ends. -/
inductive Ending
  | exit (code : Nat)
  | serving (command : ServeCommand)
  | crash (crash : Crash)

/-- What the program leaves behind: its output, its log, and a last line on what went wrong. -/
structure Report where
  output : Output
  log : List Log.Record
  complaint : Option Text
  ending : Ending

def Report.ofExit (code : Nat) (output : Output) (complaint : Option Text) : Report :=
  ⟨output, [], complaint, .exit code⟩

/-- The report of a command that fails. -/
def Report.failure (log : List Log.Record) (message : Text) : Report :=
  ⟨.text [], log, some ("Error: ".toList ++ message), .exit 1⟩

/-- The report of a program that stops on its way. -/
def Report.ofCrash (log : List Log.Record) (crash : Crash) : Report :=
  ⟨.text [], log, none, .crash crash⟩

/-- The report where there is no configuration. What refuses marks is told; values that do not
fit are not expected. -/
def Report.ofConfigFault (fault : ConfigFault) : Report :=
  if fault.refusesMarks then .failure [] fault.message else .ofCrash [] (.config fault)

/-- The report where there is no chain. Only a missing file is expected. -/
def Report.ofChainFault (log : List Log.Record) (fault : ChainFault) : Report :=
  match fault with
  | .source (.missingFile _) => .failure log fault.message
  | _ => .ofCrash log (.chain fault)

/-- A page of help, and an exit code behind it. -/
def Report.ofHelp (settings : Settings) (page : HelpPage) (code : Nat) : Report :=
  match page.fault? settings with
  | some fault => .ofCrash [] (.help fault)
  | none => .ofExit code .help none

/-- The marks as fields of a configuration. -/
def Marks.toFields (marks : Marks) : ConfigFields where
  opener := some marks.opener
  closer := some marks.closer
  separator := some marks.separator
  lenient := none
  maxDepth := none

/-- All fields that resolving writes over the settings. -/
def ResolveCommand.toFields (command : ResolveCommand) : ConfigFields :=
  { command.marks.toFields with
    lenient := some (.bool !command.strict)
    maxDepth := some command.maxDepth }

/-- A chain that grows by env files; one that cannot be read ends it. The log tells of the files
read before. -/
def addEnvFiles (files : Files) (chain : Chain) (log : List Log.Record) :
    List (Option Text) → List Log.Record × Except ChainFault Chain
  | [] => (log, .ok chain)
  | none :: _ => (log, .error .noPath)
  | some path :: more =>
    let path := Path.ofText path
    match EnvFile.load files path with
    | .error fault => (log, .error (.source fault))
    | .ok content =>
      addEnvFiles files (chain.addLast (Source.ofEnvFile path content none))
        (log ++ Log.ofEnvFile path content) more

/-- The name of the source that holds the properties given one by one. -/
def assignmentsName : Text := "command-line".toList

/-- The sources of a command: properties given one by one, then env files, then the environment. -/
def ResolveCommand.chain (command : ResolveCommand) (files : Files) :
    List Log.Record × Except ChainFault Chain :=
  match command.assignments.findIdx? Option.isNone with
  | some position => ([], .error (.noAssignment position))
  | none =>
    let pairs := command.assignments.filterMap id
    let given : Properties := Table.ofList (pairs.map fun (key, value) => (.text key, .text value))
    let own :=
      if pairs.isEmpty then Chain.empty
      else Chain.empty.addLast ⟨assignmentsName, .table given, by decide⟩
    let (log, chain) := addEnvFiles files own [] command.envFiles
    (log, chain.map fun chain =>
      if command.withEnvironment then
        chain.addLast ⟨Source.environmentName, .process, Source.environmentName_ne⟩
      else chain)

/-- A text with a line break at its end. -/
def endLine (text : Text) : Text := if text.getLast? = some '\n' then text else text ++ ['\n']

/-- Resolves the placeholders of a text. The run is cut off where it nests deeper than `bound`. -/
def runResolve (bound : Nat) (world : World) (command : ResolveCommand) : Report :=
  match world.settings.config command.toFields with
  | .error fault => .ofConfigFault fault
  | .ok c =>
    match command.chain world.files with
    | (log, .error fault) => .ofChainFault log fault
    | (log, .ok chain) =>
      let run := c.resolveWithin (chain.lookup world.env) bound (command.text.getD world.input)
      let log := log ++ Log.ofTrace chain world.env run.trace
      match run.outcome with
      | .done text => ⟨.text (endLine text), log, none, .exit 0⟩
      | .failed failure => .failure log failure.message
      | .exhausted => .ofCrash log .exhausted

/-- The placeholders of a text and what is wrong with it, as JSON. -/
def listing (c : Config) (text : Text) : Json :=
  let validation := c.validate text
  .ofMembers [
    ("placeholders", .array ((c.placeholders text).map fun p =>
      .ofMembers [("key", .text p.key), ("name", .text p.name), ("default", .ofText? p.default),
        ("syntax", .text p.whole), ("start_pos", .int p.start), ("end_pos", .int p.stop),
        ("nested", .bool p.nested)])),
    ("validation", .ofMembers [("valid", .bool validation.valid),
      ("errors", .ofTexts (validation.errors c)), ("warnings", .ofTexts validation.warnings)])]

/-- Lists the placeholders of a text. -/
def runParse (world : World) (command : ParseCommand) : Report :=
  match world.settings.config command.marks.toFields with
  | .error fault => .ofConfigFault fault
  | .ok c =>
    let text := command.text.getD world.input
    ⟨.text ((listing c text).indented 0 ++ ['\n']), Log.ofPlaceholders (c.placeholders text), none,
      .exit (if (c.validate text).valid then 0 else 1)⟩

def runCommand (bound : Nat) (world : World) : Option Command → Report
  | some (.resolve command) => runResolve bound world command
  | some (.parse command) => runParse world command
  | some (.serve command) => ⟨.text [], [], none, .serving command⟩
  | none => .ofHelp world.settings .main 1

/-- A byte in upper case, where it is a letter of the basic alphabet. -/
def upperByte (byte : UInt8) : UInt8 :=
  if 'a'.toNat ≤ byte.toNat ∧ byte.toNat ≤ 'z'.toNat then byte - 0x20 else byte

/-- How severe records are at least that go to the log. Bytes are put into upper case like a text,
and only then they are no level. -/
def Invocation.severity (invocation : Invocation) : Except Crash Nat :=
  match invocation.logLevel, invocation.logLevel.text? with
  | _, some level => (Log.threshold? level).elim (.error (.unknownLevel level)) .ok
  | .bytes content mutable, none =>
    .error (.levelOfBytes (Value.bytes (content.map upperByte) mutable).written)
  | level, none => .error (.levelNotText level.kind)

/-- Runs the program with a list of arguments, where resolving is cut off if it nests deeper than
`bound`. The log level is looked at before the command. -/
def runWithin (bound : Nat) (world : World) (arguments : List Text) : Report :=
  match Invocation.read world.settings arguments with
  | .error (.help page) => .ofHelp world.settings page 0
  | .error (.wrong page message) =>
    .ofExit 2 (.text []) (some (page.program ++ ": error: ".toList ++ message))
  | .ok invocation =>
    match invocation.severity with
    | .error crash => .ofCrash [] crash
    | .ok severity =>
      let report := runCommand bound world invocation.command
      { report with log := Log.atLeast severity report.log }

/-- Runs the program with a list of arguments. -/
def run (world : World) (arguments : List Text) : Report :=
  runWithin Config.nestingAllowed world arguments

/-- The paths of the env files that an invocation names. -/
def Invocation.envFiles (invocation : Invocation) : List Path :=
  match invocation.command with
  | some (.resolve command) => command.envFiles.filterMap (·.map Path.ofText)
  | _ => []

/-- The invocation takes its text from the input. -/
def Invocation.readsInput (invocation : Invocation) : Bool :=
  match invocation.command with
  | some (.resolve command) => command.text.isNone
  | some (.parse command) => command.text.isNone
  | _ => false

end ConfigText.CommandLine
