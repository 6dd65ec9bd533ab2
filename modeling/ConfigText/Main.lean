import ConfigText.CommandLine

/-!
The command line itself: it hands arguments, environment, files and input to the program and
writes what the program leaves behind. It starts no server.
-/

open ConfigText

/-- The variables of the process. -/
def processEnvironment : IO Environment := do
  let bytes ← IO.FS.readBinFile "/proc/self/environ"
  let block := (String.fromUTF8? bytes).getD ""
  let pairs := (block.splitOn "\x00").filterMap fun entry => Text.cut ['='] entry.toList
  return Table.ofList pairs

/-- What is found at a path. -/
def findFile (path : Path) : IO Found := do
  try
    let text ← IO.FS.readFile (String.ofList path.toText)
    return .file text.toList
  catch _ => return .nothing

/-- The env files that the arguments name. -/
def readFiles (settings : Settings) (arguments : List Text) : IO Files := do
  let paths :=
    match CommandLine.Invocation.read settings arguments with
    | .ok invocation => invocation.envFiles
    | .error _ => []
  let found ← paths.mapM fun path => return (path, ← findFile path)
  return fun path => (found.lookup path).getD .nothing

/-- The input, if the arguments ask for it. -/
def readInput (settings : Settings) (arguments : List Text) : IO Text := do
  match CommandLine.Invocation.read settings arguments with
  | .ok invocation =>
    if invocation.readsInput then return (← (← IO.getStdin).readToEnd).toList else return []
  | .error _ => return []

def usage : String :=
  "usage: propsmith [-h] [--log-level LEVEL] (resolve | parse | serve) ..."

def write (report : CommandLine.Report) : IO UInt32 := do
  match report.output with
  | .text text => IO.print (String.ofList text)
  | .help => IO.println usage
  let now ← IO.monoMsNow
  for record in report.log do
    IO.eprintln (String.ofList (record.toText (toString now).toList))
  if let some complaint := report.complaint then IO.eprintln (String.ofList complaint)
  match report.ending with
  | .exit code => return UInt32.ofNat code
  | .serving command =>
    IO.eprintln ("Nothing serves on " ++ String.ofList command.host.toText ++ " here.")
    return 1
  | .crash crash =>
    IO.eprintln (String.ofList crash.message)
    return 1

def main (arguments : List String) : IO UInt32 := do
  let arguments := arguments.map String.toList
  let env ← processEnvironment
  match Settings.ofEnvironment env with
  | .error fault =>
    IO.eprintln (String.ofList fault.message)
    return 1
  | .ok settings =>
    let files ← readFiles settings arguments
    let input ← readInput settings arguments
    write (CommandLine.run ⟨settings, env, files, input⟩ arguments)
