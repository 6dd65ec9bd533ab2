import ConfigText.CommandLine.Grammar
import ConfigText.CommandLine.HelpPage

/-!
Invocations: what a list of arguments asks the program to do. Settings stand in for what is not
given, whatever the kinds of their values; only a text for a number is read as one.
-/

namespace ConfigText.CommandLine

/-- How placeholders are written. -/
structure Marks where
  opener : Value
  closer : Value
  /-- Null for none. -/
  separator : Value

structure ResolveCommand where
  text : Option Text
  /-- Properties given one by one; `none` where a switch is left without one. -/
  assignments : List (Option (Text × Text))
  /-- Paths of env files; `none` where a switch is left without one. -/
  envFiles : List (Option Text)
  withEnvironment : Bool
  strict : Bool
  maxDepth : Value
  marks : Marks

structure ParseCommand where
  text : Option Text
  marks : Marks

structure ServeCommand where
  host : Value
  port : Value
  reload : Bool

inductive Command
  | resolve (command : ResolveCommand)
  | parse (command : ParseCommand)
  | serve (command : ServeCommand)

structure Invocation where
  logLevel : Value
  command : Option Command

/-- Why arguments ask for nothing that could be done. -/
inductive Stop
  /-- Help is asked for. -/
  | help (page : HelpPage)
  /-- The arguments that a page tells of are wrong. -/
  | wrong (page : HelpPage) (message : Text)
  deriving DecidableEq

/-! ### Switches -/

inductive MainPurpose
  | help
  | logLevel

inductive ResolvePurpose
  | help
  | assign
  | envFile
  | environment
  | strict
  | maxDepth
  | opener
  | closer
  | separator
  | noSeparator

inductive ParsePurpose
  | help
  | opener
  | closer
  | separator
  | noSeparator

inductive ServePurpose
  | help
  | host
  | port
  | reload

/-- A switch without a value. -/
def flag {ι : Type} (purpose : ι) (names : List String) : Switch ι :=
  ⟨purpose, names.map String.toList, false⟩

/-- A switch with a value. -/
def valued {ι : Type} (purpose : ι) (names : List String) : Switch ι :=
  ⟨purpose, names.map String.toList, true⟩

def mainGrammar : Grammar MainPurpose where
  switches := [flag .help ["-h", "--help"], valued .logLevel ["--log-level"]]
  slot := .command

def maxDepthSwitch : Switch ResolvePurpose := valued .maxDepth ["--max-depth"]

def resolveGrammar : Grammar ResolvePurpose where
  switches := [
    flag .help ["-h", "--help"],
    valued .assign ["--set", "-s"],
    valued .envFile ["--env-file"],
    flag .environment ["--env"],
    flag .strict ["--strict"],
    maxDepthSwitch,
    valued .opener ["--prefix"],
    valued .closer ["--suffix"],
    valued .separator ["--separator"],
    flag .noSeparator ["--no-separator"]]
  slot := .oneAtMost

def parseGrammar : Grammar ParsePurpose where
  switches := [
    flag .help ["-h", "--help"],
    valued .opener ["--prefix"],
    valued .closer ["--suffix"],
    valued .separator ["--separator"],
    flag .noSeparator ["--no-separator"]]
  slot := .oneAtMost

def portSwitch : Switch ServePurpose := valued .port ["--port"]

def serveGrammar : Grammar ServePurpose where
  switches := [
    flag .help ["-h", "--help"],
    valued .host ["--host"],
    portSwitch,
    flag .reload ["--reload"]]
  slot := .nothing

/-! ### Values -/

/-- The value of a switch. What is left of none is an empty list. -/
def valueOf (value : Option Text) : Value := value.elim (.list []) .text

/-- What stands in for a whole number that is not given. A text is read like one that is. -/
def standIn {ι : Type} (switch : Switch ι) (value : Value) : Except Text Value :=
  match value.text? with
  | some t =>
    match Number.readInteger t with
    | .ok n => .ok (.int n)
    | .error _ =>
      .error (switch.complaint ("invalid int value: ".toList ++ value.written))
  | none => .ok value

/-- The value of a switch for a whole number. What is left of none stays as it is. -/
def integerOf {ι : Type} (switch : Switch ι) (value : Option Text) : Except Text Value :=
  standIn switch (valueOf value)

/-- A property given as key and value with an equals sign between; the key is not empty. -/
def assignment {ι : Type} (switch : Switch ι) (value : Text) : Except Text (Text × Text) :=
  match Text.cut ['='] value with
  | some (c :: key, value) => .ok (c :: key, value)
  | _ =>
    .error (switch.complaint ("expected KEY=VALUE, got '".toList ++ value ++ "'".toList))

/-! ### Commands -/

/-- Goes through the uses of a reading, from left to right, up to the first that asks for help or
has a wrong value; the fault of the reading comes last. -/
def follow {ι σ : Type} (page : HelpPage) (reading : Reading ι)
    (step : σ → Use ι → Except Stop σ) (start : σ) : Except Stop σ := do
  let state ← reading.uses.foldlM step start
  match reading.fault with
  | some message => .error (.wrong page message)
  | none => return state

/-- The marks while arguments are read: the separator may be given and taken back. -/
structure MarksGiven where
  opener : Value
  closer : Value
  separator : Value
  noSeparator : Bool

def MarksGiven.ofSettings (settings : Settings) : MarksGiven :=
  ⟨settings.get .opener, settings.get .closer, settings.get .separator, false⟩

def MarksGiven.marks (given : MarksGiven) : Marks :=
  ⟨given.opener, given.closer, if given.noSeparator then .null else given.separator⟩

/-- What a command for resolving holds while arguments are read. -/
structure ResolveGiven where
  text : Option Text
  assignments : List (Option (Text × Text))
  envFiles : List (Option Text)
  withEnvironment : Bool
  strict : Bool
  maxDepth : Option Value
  marks : MarksGiven

def ResolveGiven.ofSettings (settings : Settings) : ResolveGiven :=
  ⟨none, [], [], false, false, none, .ofSettings settings⟩

def readResolve (settings : Settings) (arguments : List Text) :
    Except Stop (ResolveCommand × List Text) := do
  let wrong {α : Type} (result : Except Text α) : Except Stop α :=
    result.mapError (.wrong .resolve)
  let reading := resolveGrammar.read arguments
  let given ← follow .resolve reading (fun given use =>
    match use with
    | .slot arguments => .ok { given with text := arguments.head? }
    | .flag switch =>
      match switch.purpose with
      | .environment => .ok { given with withEnvironment := true }
      | .strict => .ok { given with strict := true }
      | .noSeparator => .ok { given with marks.noSeparator := true }
      | _ => .error (.help .resolve)
    | .value switch value =>
      match switch.purpose with
      | .assign => do
        let pair ← value.mapM fun text => wrong (assignment switch text)
        return { given with assignments := given.assignments ++ [pair] }
      | .envFile => .ok { given with envFiles := given.envFiles ++ [value] }
      | .maxDepth => do
        let depth ← wrong (integerOf switch value)
        return { given with maxDepth := some depth }
      | .opener => .ok { given with marks.opener := valueOf value }
      | .closer => .ok { given with marks.closer := valueOf value }
      | .separator => .ok { given with marks.separator := valueOf value }
      | _ => .ok given) (ResolveGiven.ofSettings settings)
  let maxDepth ←
    match given.maxDepth with
    | some depth => pure depth
    | none => wrong (standIn maxDepthSwitch (settings.get .maxDepth))
  return (⟨given.text, given.assignments, given.envFiles, given.withEnvironment, given.strict,
    maxDepth, given.marks.marks⟩, reading.extras)

def readParse (settings : Settings) (arguments : List Text) :
    Except Stop (ParseCommand × List Text) := do
  let reading := parseGrammar.read arguments
  let start : Option Text × MarksGiven := (none, .ofSettings settings)
  let (text, given) ← follow .parse reading (fun (text, given) use =>
    match use with
    | .slot arguments => .ok (arguments.head?, given)
    | .flag switch =>
      match switch.purpose with
      | .noSeparator => .ok (text, { given with noSeparator := true })
      | _ => .error (.help .parse)
    | .value switch value =>
      match switch.purpose with
      | .opener => .ok (text, { given with opener := valueOf value })
      | .closer => .ok (text, { given with closer := valueOf value })
      | .separator => .ok (text, { given with separator := valueOf value })
      | _ => .ok (text, given)) start
  return (⟨text, given.marks⟩, reading.extras)

/-- What a command for serving holds while arguments are read. -/
structure ServeGiven where
  host : Option Value
  port : Option Value
  reload : Bool

def readServe (settings : Settings) (arguments : List Text) :
    Except Stop (ServeCommand × List Text) := do
  let wrong {α : Type} (result : Except Text α) : Except Stop α := result.mapError (.wrong .serve)
  let reading := serveGrammar.read arguments
  let given ← follow .serve reading (fun given use =>
    match use with
    | .slot _ => .ok given
    | .flag switch =>
      match switch.purpose with
      | .reload => .ok { given with reload := true }
      | _ => .error (.help .serve)
    | .value switch value =>
      match switch.purpose with
      | .host => .ok { given with host := some (valueOf value) }
      | .port => do
        let port ← wrong (integerOf switch value)
        return { given with port := some port }
      | _ => .ok given) (⟨none, none, false⟩ : ServeGiven)
  let port ←
    match given.port with
    | some port => pure port
    | none => wrong (standIn portSwitch (settings.get .port))
  return (⟨given.host.getD (settings.get .host), port, given.reload⟩, reading.extras)

def commandNames : List Text := ["resolve", "parse", "serve"].map String.toList

/-- The command that arguments name, and the arguments it does not know. -/
def readCommand (settings : Settings) (arguments : List Text) :
    Except Stop (Option Command × List Text) :=
  match arguments with
  | [] => .ok (none, [])
  | name :: arguments =>
    if name = "resolve".toList then
      (readResolve settings arguments).map fun (command, extras) =>
        (some (.resolve command), extras)
    else if name = "parse".toList then
      (readParse settings arguments).map fun (command, extras) => (some (.parse command), extras)
    else if name = "serve".toList then
      (readServe settings arguments).map fun (command, extras) => (some (.serve command), extras)
    else
      .error (.wrong .main ("argument command: invalid choice: ".toList ++ Text.quoted name
        ++ " (choose from ".toList ++ Text.join [',', ' '] (commandNames.map Text.quoted)
        ++ ")".toList))

/-- What a list of arguments asks for. -/
def Invocation.read (settings : Settings) (arguments : List Text) : Except Stop Invocation := do
  let reading := mainGrammar.read arguments
  let start : Invocation × List Text := (⟨settings.get .logLevel, none⟩, [])
  let (invocation, unknown) ← follow .main reading (fun (invocation, unknown) use =>
    match use with
    | .slot arguments => do
      let (command, extras) ← readCommand settings arguments
      return ({ invocation with command := command }, extras)
    | .flag _ => .error (.help .main)
    | .value _ value => .ok ({ invocation with logLevel := valueOf value }, unknown)) start
  match reading.extras ++ unknown with
  | [] => return invocation
  | extras =>
    throw (.wrong .main ("unrecognized arguments: ".toList ++ Text.join [' '] extras))

end ConfigText.CommandLine
