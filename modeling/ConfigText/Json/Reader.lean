import ConfigText.Json
import ConfigText.Json.Encoding
import ConfigText.Number.Reading

/-!
Reading JSON. A fault carries how many characters were left where it was found; its position is
counted from the start of the text. Of members with one name the last is kept, in the place of
the first. The names `NaN`, `Infinity` and `-Infinity` are numbers.

A text holds no surrogates, so an escape for one that stands alone is read as the replacement
character. Texts and names that differ only in such escapes are read as one.
-/

namespace ConfigText.Json

/-- Why a text is no JSON. -/
inductive Fault
  /-- The grammar is broken at this position. -/
  | malformed (position : Nat)
  /-- A whole number has too many digits. -/
  | oversized
  deriving DecidableEq

namespace Reader

/-- What went wrong, with the number of characters from there to the end. -/
inductive Stop
  | here (left : Nat)
  | oversized
  deriving DecidableEq

/-- Reading ends with a value and the rest, or stops. -/
abbrev Scan := Except Stop

def stopAt {α : Type} (rest : Text) : Scan α := .error (.here rest.length)

def isSpace (c : Char) : Bool := c == ' ' || c == '\t' || c == '\n' || c == '\r'

def skipSpace (source : Text) : Text := source.dropWhile isSpace

def hexDigit? (c : Char) : Option Nat :=
  if c.isDigit then some (c.toNat - '0'.toNat)
  else if 'a' ≤ c ∧ c ≤ 'f' then some (c.toNat - 'a'.toNat + 10)
  else if 'A' ≤ c ∧ c ≤ 'F' then some (c.toNat - 'A'.toNat + 10)
  else none

/-- Four hexadecimal digits with something behind them. -/
def unit? : Text → Option (Nat × Text)
  | a :: b :: c :: d :: e :: rest =>
    match hexDigit? a, hexDigit? b, hexDigit? c, hexDigit? d with
    | some a, some b, some c, some d => some (4096 * a + 256 * b + 16 * c + d, e :: rest)
    | _, _, _, _ => none
  | _ => none

/-- The character of a single-letter escape. -/
def plainEscape? : Char → Option Char
  | '\x22' => some '\x22'
  | '\\' => some '\\'
  | '/' => some '/'
  | 'b' => some '\x08'
  | 'f' => some '\x0c'
  | 'n' => some '\n'
  | 'r' => some '\r'
  | 't' => some '\t'
  | _ => none

/-- The character that an escape stands for, after its backslash; `rest` starts with the
backslash's follower. -/
def escaped (rest : Text) : Scan (Char × Text) :=
  match rest with
  | 'u' :: tail =>
    match unit? tail with
    | none => stopAt rest
    | some (high, tail) =>
      match isHighUnit high, tail with
      | true, '\\' :: 'u' :: more =>
        match unit? more with
        | none => stopAt ('u' :: more)
        | some (low, after) =>
          if isLowUnit low then
            .ok (charOfPair high low, after)
          else .ok (charOf high, tail)
      | _, _ => .ok (charOf high, tail)
  | c :: tail =>
    match plainEscape? c with
    | some c => .ok (c, tail)
    | none => .error (.here (rest.length + 1))
  | [] => stopAt rest

/-- The characters up to the closing quote; `fuel` is no less than their number, and `opened` is
how many characters were left at the opening quote. -/
def string (opened : Nat) : Nat → Text → Scan (Text × Text)
  | 0, _ => .error (.here opened)
  | _ + 1, [] => .error (.here opened)
  | fuel + 1, c :: rest =>
    if c = '\x22' then .ok ([], rest)
    else if c = '\\' then
      if rest.isEmpty then .error (.here opened)
      else do
        let (c, rest) ← escaped rest
        let (more, rest) ← string opened fuel rest
        return (c :: more, rest)
    else if c.toNat < 0x20 then stopAt (c :: rest)
    else do
      let (more, rest) ← string opened fuel rest
      return (c :: more, rest)

/-- Digits in front, and the rest. -/
def digits (source : Text) : Text × Text :=
  (source.takeWhile Char.isDigit, source.dropWhile Char.isDigit)

def valueOf (digits : Text) : Nat := Number.ofDigits (digits.map fun c => c.toNat - '0'.toNat)

/-- The fraction behind a point, if there is one. -/
def fraction : Text → Text × Text
  | '.' :: rest =>
    match digits rest with
    | ([], _) => ([], '.' :: rest)
    | (ds, rest) => (ds, rest)
  | source => ([], source)

/-- The exponent behind its letter, if there is one. -/
def exponent (source : Text) : Option Int × Text :=
  match source with
  | c :: rest =>
    if c = 'e' ∨ c = 'E' then
      let (negative, rest) := Number.takeSign rest
      match digits rest with
      | ([], _) => (none, source)
      | (ds, rest) => (some (Number.signed negative (valueOf ds)), rest)
    else (none, source)
  | [] => (none, source)

/-- A number without its sign; `start` is the text from the sign on. -/
def unsigned (start : Text) (negative : Bool) (source : Text) : Scan (Json × Text) :=
  let (whole, rest) :=
    match source with
    | '0' :: rest => (['0'], rest)
    | _ => digits source
  if whole.isEmpty then stopAt start
  else
    let (part, rest) := fraction rest
    let (power, rest) := exponent rest
    if part.isEmpty && power.isNone then
      if digitLimit < whole.length then .error .oversized
      else .ok (int (Number.signed negative (valueOf whole)), rest)
    else
      let scale := power.getD 0 - part.length
      .ok (float (.ofDecimal negative (valueOf (whole ++ part)) scale), rest)

/-- A text that starts with a word, without it. -/
def afterWord? (word : String) (source : Text) : Option Text :=
  if word.toList <+: source then some (source.drop word.length) else none

/-- A value that is written as a word. -/
def wordValue? (source : Text) : Option (Json × Text) :=
  [("null", null), ("true", bool true), ("false", bool false), ("NaN", float .nan),
    ("Infinity", float (.infinite false)), ("-Infinity", float (.infinite true))].findSome?
      fun (word, value) => (afterWord? word source).map (value, ·)

mutual

/-- A value in front of a text. -/
def value : Nat → Text → Scan (Json × Text)
  | 0, rest => stopAt rest
  | fuel + 1, rest =>
    match rest with
    | '\x22' :: tail => do
      let (t, rest) ← string rest.length (rest.length + 1) tail
      return (text t, rest)
    | '{' :: tail =>
      match skipSpace tail with
      | '}' :: rest => .ok (object [], rest)
      | tail => do
        let (members, rest) ← members fuel tail
        return (object (Table.ofList members).entries, rest)
    | '[' :: tail =>
      match skipSpace tail with
      | ']' :: rest => .ok (array [], rest)
      | tail => do
        let (items, rest) ← items fuel tail
        return (array items, rest)
    | _ =>
      match wordValue? rest with
      | some (json, rest) => .ok (json, rest)
      | none =>
        match rest with
        | '-' :: tail => unsigned rest true tail
        | _ => unsigned rest false rest

/-- Members up to the closing brace. -/
def members : Nat → Text → Scan (List (Text × Json) × Text)
  | 0, rest => stopAt rest
  | fuel + 1, rest =>
    match rest with
    | '\x22' :: tail => do
      let (name, rest) ← string rest.length (rest.length + 1) tail
      match skipSpace rest with
      | ':' :: rest =>
        let (json, rest) ← value fuel (skipSpace rest)
        match skipSpace rest with
        | '}' :: rest => return ([(name, json)], rest)
        | ',' :: rest =>
          let (more, rest) ← members fuel (skipSpace rest)
          return ((name, json) :: more, rest)
        | rest => stopAt rest
      | rest => stopAt rest
    | _ => stopAt rest

/-- Items up to the closing bracket. -/
def items : Nat → Text → Scan (List Json × Text)
  | 0, rest => stopAt rest
  | fuel + 1, rest => do
    let (json, rest) ← value fuel rest
    match skipSpace rest with
    | ']' :: rest => return ([json], rest)
    | ',' :: rest =>
      let (more, rest) ← items fuel (skipSpace rest)
      return (json :: more, rest)
    | rest => stopAt rest

end

/-- A value with nothing but space around it. -/
def document (source : Text) : Except Stop Json := do
  let (json, rest) ← value (2 * source.length + 2) (skipSpace source)
  match skipSpace rest with
  | [] => return json
  | rest => stopAt rest

end Reader

/-- The value that a text writes. -/
def read (source : Text) : Except Fault Json :=
  match Reader.document source with
  | .ok json => .ok json
  | .error (.here left) => .error (.malformed (source.length - left))
  | .error .oversized => .error .oversized

end ConfigText.Json
