import ConfigText.Chain
import ConfigText.Placeholder
import ConfigText.Text.UpperCase

/-!
Log records: what is said of files that are read, of placeholders that are found and of runs. A
level given by name decides which records are kept.
-/

namespace ConfigText.Log

structure Record where
  severity : Nat
  level : Text
  /-- The part of the program that speaks. -/
  speaker : Text
  message : Text
  deriving DecidableEq

/-- Levels by name, where two names may stand for one level. -/
def levels : List (Text × Nat) :=
  [("CRITICAL".toList, 50), ("FATAL".toList, 50), ("ERROR".toList, 40), ("WARN".toList, 30),
    ("WARNING".toList, 30), ("INFO".toList, 20), ("DEBUG".toList, 10), ("NOTSET".toList, 0)]

/-- The lowest severity that a level lets through; the level's case does not matter. -/
def threshold? (level : Text) : Option Nat := levels.lookup (Text.upper level)

/-- What is said of a level that there is not. -/
def unknownMessage (level : Text) : Text :=
  "Unknown level: ".toList ++ Text.quoted (Text.upper level)

/-- A record in one line, behind a time. -/
def Record.toText (time : Text) (record : Record) : Text :=
  Text.join [' '] [time, record.level, record.speaker ++ [':'], record.message]

def debug (speaker : String) (message : Text) : Record :=
  ⟨10, "DEBUG".toList, speaker.toList, message⟩

def warning (speaker : String) (message : Text) : Record :=
  ⟨30, "WARNING".toList, speaker.toList, message⟩

/-- The records of an env file that is read: its faults, then how much it holds. -/
def ofEnvFile (path : Path) (content : EnvFile.Content) : List Record :=
  content.faults.map (fun line =>
    warning "dotenv.main"
      ("python-dotenv could not parse statement starting at line ".toList ++ Text.ofNat line))
  ++ [debug "propsmith.sources.mapping" ("Loaded ".toList ++ Text.ofNat content.values.size
    ++ " properties from ".toList ++ path.toText)]

/-- The records of placeholders that are listed. -/
def ofPlaceholders (placeholders : List Placeholder) : List Record :=
  placeholders.map fun p =>
    debug "propsmith.placeholders.parser" ("Found placeholder: ".toList ++ p.whole)

/-- The records of a run over a chain: where values are found, and what is replaced. -/
def ofTrace (chain : Chain) (env : Environment) (trace : List Event) : List Record :=
  trace.filterMap fun
    | .asks name =>
      (chain.provider? env name).map fun (source, _) =>
        debug "propsmith.sources.chain" ("Found key '".toList ++ name
          ++ "' in property source '".toList ++ source.name ++ "'".toList)
    | .fills name =>
      some (debug "propsmith.placeholders.resolver"
        ("Resolved placeholder '".toList ++ name ++ "'".toList))
    | _ => none

/-- The records at or above a severity. -/
def atLeast (severity : Nat) (records : List Record) : List Record :=
  records.filter (severity ≤ ·.severity)

end ConfigText.Log
