import ConfigText.Json
import ConfigText.Text.Quoted

/-!
Writing JSON in the basic alphabet: other characters are escaped by their UTF-16 units. A value is
written on one line, or indented with one member or item a line.
-/

namespace ConfigText.Json

/-- The UTF-16 units of a character. -/
def units (c : Char) : List Nat :=
  if c.toNat < 0x10000 then [c.toNat]
  else [0xD800 + (c.toNat - 0x10000) / 0x400, 0xDC00 + (c.toNat - 0x10000) % 0x400]

/-- A character inside quotes. -/
def escape (c : Char) : Text :=
  if c = Text.doubleQuote ∨ c = '\\' then ['\\', c]
  else if c = '\n' then ['\\', 'n']
  else if c = '\r' then ['\\', 'r']
  else if c = '\t' then ['\\', 't']
  else if c = '\x08' then ['\\', 'b']
  else if c = '\x0c' then ['\\', 'f']
  else if 0x20 ≤ c.toNat ∧ c.toNat < 0x7F then [c]
  else (units c).flatMap fun unit => '\\' :: 'u' :: Text.hex 4 unit

/-- A text in quotes. -/
def quoted (t : Text) : Text :=
  Text.doubleQuote :: t.flatMap escape ++ [Text.doubleQuote]

/-- A value that holds no other. -/
def scalar : Json → Text
  | null => "null".toList
  | bool b => if b then "true".toList else "false".toList
  | int n => Text.ofInt n
  | float .nan => "NaN".toList
  | float (.infinite negative) => if negative then "-Infinity".toList else "Infinity".toList
  | float x => x.toText
  | text t => quoted t
  | array _ => ['[', ']']
  | object _ => ['{', '}']

mutual

/-- A value on one line. -/
def compact : Json → Text
  | array items => '[' :: Text.join [',', ' '] (compactItems items) ++ [']']
  | object members => '{' :: Text.join [',', ' '] (compactMembers members) ++ ['}']
  | json => scalar json

def compactItems : List Json → List Text
  | [] => []
  | item :: more => compact item :: compactItems more

def compactMembers : List (Text × Json) → List Text
  | [] => []
  | (name, value) :: more =>
    (quoted name ++ [':', ' '] ++ compact value) :: compactMembers more

end

/-- A line break and the indent of a level, two spaces each. -/
def newLine (level : Nat) : Text := '\n' :: List.replicate (2 * level) ' '

/-- Lines between brackets, one level deeper than the brackets. -/
def block (opening closing : Char) (level : Nat) : List Text → Text
  | [] => [opening, closing]
  | lines =>
    opening :: newLine (level + 1) ++ Text.join (',' :: newLine (level + 1)) lines
      ++ newLine level ++ [closing]

mutual

/-- A value over several lines, where its own line has a given level. -/
def indented (level : Nat) : Json → Text
  | array items => block '[' ']' level (indentedItems (level + 1) items)
  | object members => block '{' '}' level (indentedMembers (level + 1) members)
  | json => scalar json

def indentedItems (level : Nat) : List Json → List Text
  | [] => []
  | item :: more => indented level item :: indentedItems level more

def indentedMembers (level : Nat) : List (Text × Json) → List Text
  | [] => []
  | (name, value) :: more =>
    (quoted name ++ [':', ' '] ++ indented level value) :: indentedMembers level more

end
end ConfigText.Json
