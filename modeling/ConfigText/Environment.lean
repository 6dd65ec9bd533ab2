import ConfigText.Value

/-!
The environment: variables of a process, all texts. Not every name can be given a value.
-/

namespace ConfigText

abbrev Environment := Table Text Text

/-- Why a variable cannot be set. -/
inductive AssignFault
  /-- The value is of another kind. -/
  | notText (kind : Text)
  /-- The name or the value holds the character that ends both. -/
  | nullCharacter
  /-- The name holds the sign between names and values. -/
  | equalsInName
  | emptyName
  deriving DecidableEq

def AssignFault.message : AssignFault → Text
  | notText kind => "str expected, not ".toList ++ kind
  | nullCharacter => "embedded null byte".toList
  | equalsInName => "illegal environment variable name".toList
  | emptyName => "[Errno 22] Invalid argument".toList

namespace Environment

/-- The character that ends names and values in memory. -/
def terminator : Char := '\x00'

/-- The environment with one variable set. -/
def assign (env : Environment) (name : Text) (value : Value) : Except AssignFault Environment :=
  match value.text? with
  | some t =>
    if name.contains terminator || t.contains terminator then .error .nullCharacter
    else if name.contains '=' then .error .equalsInName
    else if name = [] then .error .emptyName
    else .ok (env.insert name t)
  | none => .error (.notText value.kind)

end Environment
end ConfigText
