import ConfigText.Table
import ConfigText.Text.Blank

/-!
Env files: statements `name=value`, one after the other, with comments, quotes and escapes. A
statement that cannot be read is skipped up to the end of its line and its first line is noted.
-/

namespace ConfigText.EnvFile

/-- What a file says: names with their values, where a name may stand without one, and the lines
where statements start that cannot be read. -/
structure Content where
  values : Table Text (Option Text)
  faults : List Nat

/-- Line breaks of all kinds as one character. -/
def unifyBreaks : Text → Text
  | '\r' :: '\n' :: rest => '\n' :: unifyBreaks rest
  | '\r' :: rest => '\n' :: unifyBreaks rest
  | c :: rest => c :: unifyBreaks rest
  | [] => []

/-- Reading ends with a result and the rest, or fails with the rest. -/
abbrev Read := Except Text

def skipBlanks (source : Text) : Text := source.dropWhile Text.isBlank

def skipLineBlanks (source : Text) : Text := source.dropWhile Text.isLineBlank

def isBreak (c : Char) : Bool := c == '\n' || c == '\r'

def exportWord : Text := "export".toList

/-- The rest behind the word `export` and the blanks after it, if they are there. -/
def skipExport (source : Text) : Text :=
  if exportWord <+: source then
    match source.drop exportWord.length with
    | c :: rest => if Text.isLineBlank c then skipLineBlanks rest else source
    | [] => source
  else source

def isNameChar (c : Char) : Bool := c != '=' && c != '#' && !Text.isBlank c

/-- A name, bare or in single quotes; a comment has none. -/
def name (source : Text) : Read (Option Text × Text) :=
  match source with
  | '#' :: _ => .ok (none, source)
  | '\x27' :: tail =>
    match tail.takeWhile (· != Text.quote), tail.dropWhile (· != Text.quote) with
    | [], _ | _, [] => .error source
    | key, _ :: rest => .ok (some key, rest)
  | _ =>
    match source.takeWhile isNameChar with
    | [] => .error source
    | key => .ok (some key, source.dropWhile isNameChar)

/-- The characters up to the closing quote, where a backslash protects the next one. -/
def quotedBody (mark : Char) : Text → Option (Text × Text)
  | [] => none
  | ['\\'] => none
  | '\\' :: c :: rest =>
    (quotedBody mark rest).map fun (body, rest) => ('\\' :: c :: body, rest)
  | c :: rest =>
    if c = mark then some ([], rest)
    else (quotedBody mark rest).map fun (body, rest) => (c :: body, rest)

/-- What an escape stands for between single quotes. -/
def singleEscape? (c : Char) : Option Char :=
  if c = '\\' ∨ c = Text.quote then some c else none

/-- What an escape stands for between double quotes. -/
def doubleEscape? : Char → Option Char
  | '\\' => some '\\'
  | '\x27' => some '\x27'
  | '\x22' => some '\x22'
  | 'a' => some '\x07'
  | 'b' => some '\x08'
  | 'f' => some '\x0c'
  | 'n' => some '\n'
  | 'r' => some '\r'
  | 't' => some '\t'
  | 'v' => some '\x0b'
  | _ => none

/-- The text with its escapes replaced, from left to right; other backslashes stay. -/
def unescape (escape? : Char → Option Char) : Text → Text
  | '\\' :: c :: rest =>
    match escape? c with
    | some meant => meant :: unescape escape? rest
    | none => '\\' :: unescape escape? (c :: rest)
  | c :: rest => c :: unescape escape? rest
  | [] => []

/-- The text up to the blank in front of the first number sign that follows a blank. -/
def dropComment (afterBlank : Bool) : Text → Text
  | [] => []
  | c :: rest =>
    if afterBlank && c == '#' then [] else c :: dropComment (Text.isBlank c) rest

/-- A value, where `spaced` says that blanks came after the equals sign. -/
def value (spaced : Bool) (source : Text) : Read (Text × Text) :=
  let quotedValue (mark : Char) (escape? : Char → Option Char) (tail : Text) : Read (Text × Text) :=
    match quotedBody mark tail with
    | some (body, rest) => .ok (unescape escape? body, rest)
    | none => .error source
  match source with
  | [] => .ok ([], [])
  | c :: tail =>
    if spaced && c == '#' then .ok ([], source)
    else if c == Text.quote then quotedValue c singleEscape? tail
    else if c == Text.doubleQuote then quotedValue c doubleEscape? tail
    else
      let line := source.takeWhile (!isBreak ·)
      .ok (Text.trimRightBy Text.isBlank (dropComment false line), source.dropWhile (!isBreak ·))

/-- The rest behind a comment, if one follows. -/
def skipComment (source : Text) : Text :=
  match skipLineBlanks source with
  | '#' :: rest => rest.dropWhile (!isBreak ·)
  | _ => source

/-- The rest behind the end of a line. -/
def endLine (source : Text) : Read Text :=
  match skipLineBlanks source with
  | [] => .ok []
  | '\n' :: rest => .ok rest
  | _ => .error source

/-- One statement: a name with its value, or nothing. -/
def statement (source : Text) : Read (Option (Text × Option Text) × Text) := do
  let (key, rest) ← name (skipExport source)
  let rest := skipLineBlanks rest
  let (value, rest) ←
    match rest with
    | '=' :: tail => do
      let after := skipLineBlanks tail
      let (value, rest) ← value (after.length < tail.length) after
      pure (some value, rest)
    | _ => pure (none, rest)
  let rest ← endLine (skipComment rest)
  return (key.map (·, value), rest)

/-- The rest behind the current line. -/
def skipLine (source : Text) : Text := (source.dropWhile (!isBreak ·)).drop 1

/-- The line where a rest of the source begins. -/
def lineOf (source rest : Text) : Nat := 1 + (source.count '\n' - rest.count '\n')

/-- The statements of the rest of a source; `fuel` is more than its number of characters. -/
def contentFrom (source : Text) : Nat → Text → Content → Content
  | 0, _, content => content
  | fuel + 1, rest, content =>
    match skipBlanks rest with
    | [] => content
    | start =>
      match statement start with
      | .ok (binding, after) =>
        let values :=
          match binding with
          | some (key, value) => content.values.insert key value
          | none => content.values
        contentFrom source fuel after { content with values := values }
      | .error stuck =>
        contentFrom source fuel (skipLine stuck)
          { content with faults := content.faults ++ [lineOf source rest] }

/-- The content of a file, given its text. -/
def read (source : Text) : Content :=
  let source := (unifyBreaks source).dropMark
  contentFrom source (source.length + 1) source ⟨.empty, []⟩

end ConfigText.EnvFile
