import ConfigText.Number.Reading
import ConfigText.Text.Utf8
import ConfigText.Value

/-!
Fields of records: a value is read as a text, a truth value, a whole number or a list of texts, or
it does not fit. Readers are lenient about numbers and truth values written in other ways, and
about bytes that write a text.
-/

namespace ConfigText

/-- Why a value does not fit a field. -/
inductive Mismatch
  | missing
  | notText
  /-- Bytes that write no text. -/
  | undecodable
  | notBool
  | unreadableBool
  | notInteger
  | unreadableInteger
  | oversizedInteger
  | fractional
  | notFinite
  | notList
  | notDict
  | notRecord
  | notObject
  | notJson
  deriving DecidableEq

namespace Mismatch

def code : Mismatch → Text
  | missing => "missing".toList
  | notText => "string_type".toList
  | undecodable => "string_unicode".toList
  | notBool => "bool_type".toList
  | unreadableBool => "bool_parsing".toList
  | notInteger => "int_type".toList
  | unreadableInteger => "int_parsing".toList
  | oversizedInteger => "int_parsing_size".toList
  | fractional => "int_from_float".toList
  | notFinite => "finite_number".toList
  | notList => "list_type".toList
  | notDict => "dict_type".toList
  | notRecord => "model_type".toList
  | notObject => "model_attributes_type".toList
  | notJson => "json_invalid".toList

def message : Mismatch → Text
  | missing => "Field required".toList
  | notText => "Input should be a valid string".toList
  | undecodable =>
    "Input should be a valid string, unable to parse raw data as a unicode string".toList
  | notBool => "Input should be a valid boolean".toList
  | unreadableBool => "Input should be a valid boolean, unable to interpret input".toList
  | notInteger => "Input should be a valid integer".toList
  | unreadableInteger =>
    "Input should be a valid integer, unable to parse string as an integer".toList
  | oversizedInteger =>
    "Unable to parse input string as an integer, exceeded maximum size".toList
  | fractional =>
    "Input should be a valid integer, got a number with a fractional part".toList
  | notFinite => "Input should be a finite number".toList
  | notList => "Input should be a valid list".toList
  | notDict => "Input should be a valid dictionary".toList
  | notRecord => "Input should be a valid record".toList
  | notObject => "Input should be a valid dictionary or object to extract fields from".toList
  | notJson => "JSON decode error".toList

end Mismatch

/-- A step of the way to a value inside a record. -/
inductive PlaceStep
  | field (name : Text)
  | index (i : Nat)
  deriving DecidableEq

/-- A value that does not fit, and where it stands. -/
structure Complaint where
  mismatch : Mismatch
  place : List PlaceStep
  deriving DecidableEq

namespace Field

/-- A reader's result at a place: a value, or complaints. -/
abbrev Read (α : Type) := Except (List Complaint) α

/-- The complaints of a reader. -/
def complaints {α : Type} : Read α → List Complaint
  | .ok _ => []
  | .error list => list

/-- The result of reading the value of a named field. -/
def named {α : Type} (name : Text) (read : Except Mismatch α) : Read α :=
  read.mapError fun mismatch => [⟨mismatch, [.field name]⟩]

theorem of_named {α : Type} {name : Text} {read : Except Mismatch α} {value : α}
    (h : named name read = .ok value) : read = .ok value := by
  cases read with
  | ok read => exact congrArg Except.ok (Except.ok.inj h)
  | error mismatch => cases h

/-- Texts of any kind, and bytes that write one. -/
def text : Value → Except Mismatch Text
  | .text t => .ok t
  | .styled t _ => .ok t
  | .bytes content _ => (Text.ofUtf8 content).mapError fun _ => .undecodable
  | _ => .error .notText

/-- Null is no text, and allowed. -/
def textOrNull : Value → Except Mismatch (Option Text)
  | .null => .ok none
  | value => (text value).map some

def yesWords : List Text :=
  ["1", "t", "true", "y", "yes", "on"].map String.toList

def noWords : List Text :=
  ["0", "f", "false", "n", "no", "off"].map String.toList

/-- Numbers of other kinds count as whole ones only between the bounds of a machine word. -/
def wordBound : Nat := Nat.pow 2 63

def boolOfInt (n : Int) : Except Mismatch Bool :=
  if n = 0 then .ok false
  else if n = 1 then .ok true
  else if -wordBound ≤ n ∧ n < wordBound then .error .unreadableBool
  else .error .notBool

/-- A number without a fraction as a whole one. Both bounds of a machine word are out of reach. -/
def wholeOf (x : Binary64) : Except Mismatch Int :=
  match x, x.toInt? with
  | .finite .., some n => if n.natAbs < wordBound then .ok n else .error .oversizedInteger
  | .finite .., none => .error .fractional
  | _, _ => .error .notFinite

/-- A truth value written as a word in any case. -/
def boolOfText (t : Text) : Except Mismatch Bool :=
  if Text.lowerBasic t ∈ yesWords then .ok true
  else if Text.lowerBasic t ∈ noWords then .ok false
  else .error .unreadableBool

/-- A whole number written as digits. -/
def integerOfText (t : Text) : Except Mismatch Int :=
  if Number.startsOverlong t then .error .oversizedInteger
  else ((Number.plainInteger t).bind Number.readPlain).elim (.error .unreadableInteger) .ok

/-- A reader of texts on bytes, where those that write no text are not readable. -/
def ofBytes {α : Type} (read : Text → Except Mismatch α) (unreadable : Mismatch)
    (content : List UInt8) : Except Mismatch α :=
  match Text.ofUtf8 content with
  | .ok t => read t
  | .error _ => .error unreadable

/-- Truth values, also written as words in any case or as the numbers one and zero. -/
def bool : Value → Except Mismatch Bool
  | .bool b => .ok b
  | .int n => boolOfInt n
  | .float x =>
    match wholeOf x with
    | .ok n => boolOfInt n
    | .error _ => .error .notBool
  | .text t => boolOfText t
  | .styled t _ => boolOfText t
  | .bytes content false => ofBytes boolOfText .unreadableBool content
  | _ => .error .notBool

/-- Whole numbers, also written as digits, as a truth value or as a number without a fraction. -/
def integer : Value → Except Mismatch Int
  | .int n => .ok n
  | .bool b => .ok (if b then 1 else 0)
  | .float x => wholeOf x
  | .text t => integerOfText t
  | .styled t _ => integerOfText t
  | .bytes content false => ofBytes integerOfText .unreadableInteger content
  | _ => .error .notInteger

/-- Null is no number, and allowed. -/
def integerOrNull : Value → Except Mismatch (Option Int)
  | .null => .ok none
  | value => (integer value).map some

/-- The texts of a list, the first one at index `i`. -/
def texts (name : Text) (i : Nat) : List Value → Read (List Text)
  | [] => .ok []
  | item :: more =>
    match text item, texts name (i + 1) more with
    | .ok t, .ok ts => .ok (t :: ts)
    | .ok _, .error rest => .error rest
    | .error mismatch, rest =>
      .error (⟨mismatch, [.field name, .index i]⟩ :: complaints rest)

/-- A list or tuple of texts. -/
def textList (name : Text) : Value → Read (List Text)
  | .list items => texts name 0 items
  | .tuple items => texts name 0 items
  | _ => .error [⟨.notList, [.field name]⟩]

end Field
end ConfigText
