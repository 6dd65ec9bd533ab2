import ConfigText.Number.Binary64
import ConfigText.Table
import ConfigText.Text.Quoted

/-!
Values as configuration data holds them: scalars, and lists, tuples and dictionaries of values.
Every value has a text; a text inside a container is quoted.

A kind of its own may be derived from texts. Its values are texts wherever one is needed: they are
compared, searched and cut like the text they hold. Only how they show themselves is their own.
-/

namespace ConfigText

/-- How a value of a kind that is derived from texts shows itself. -/
structure Style where
  /-- The name of the kind. -/
  kind : Text
  /-- The text that the value is turned into. -/
  shown : Text
  /-- The text of the value inside a container. -/
  quoted : Text
  deriving DecidableEq

inductive Value
  | null
  | bool (b : Bool)
  | int (n : Int)
  | float (x : Binary64)
  | text (t : Text)
  /-- A text of a kind of its own. -/
  | styled (t : Text) (style : Style)
  /-- Bytes, which may be ones that can be changed in place. -/
  | bytes (content : List UInt8) (mutable : Bool)
  | list (items : List Value)
  | tuple (items : List Value)
  | dict (entries : List (Value × Value))

namespace Value

instance : Inhabited Value := ⟨null⟩

/-- The text that a value is, of whatever kind. -/
def text? : Value → Option Text
  | text t => some t
  | styled t _ => some t
  | _ => none

/-- A number, where truth values count as one and zero. -/
def number? : Value → Option (Int ⊕ Binary64)
  | bool b => some (.inl (if b then 1 else 0))
  | int n => some (.inl n)
  | float x => some (.inr x)
  | _ => none

/-- Equality of numbers of either kind. -/
def sameNumber : Int ⊕ Binary64 → Int ⊕ Binary64 → Bool
  | .inl m, .inl n => m == n
  | .inl m, .inr y => y.toInt? == some m
  | .inr x, .inl n => x.toInt? == some n
  | .inr x, .inr y => x.sameNumber y

mutual

/-- Both values are the same key of a dictionary: numbers by what they count and texts by what they
hold, whatever their kind. Lists, dictionaries and bytes that can be changed are no keys. -/
def sameKey : Value → Value → Bool
  | null, null => true
  | bytes s _, bytes t _ => s == t
  | tuple xs, tuple ys => sameKeys xs ys
  | x, y =>
    match x.text?, y.text?, x.number?, y.number? with
    | some s, some t, _, _ => s == t
    | _, _, some m, some n => sameNumber m n
    | _, _, _, _ => false

def sameKeys : List Value → List Value → Bool
  | [], [] => true
  | x :: xs, y :: ys => sameKey x y && sameKeys xs ys
  | _, _ => false

end

instance : BEq Value := ⟨sameKey⟩

/-- The name of a value's kind. -/
def kind : Value → Text
  | null => "NoneType".toList
  | bool _ => "bool".toList
  | int _ => "int".toList
  | float _ => "float".toList
  | text _ => "str".toList
  | styled _ style => style.kind
  | bytes _ mutable => if mutable then "bytearray".toList else "bytes".toList
  | list _ => "list".toList
  | tuple _ => "tuple".toList
  | dict _ => "dict".toList

/-- Neither null nor false nor zero nor empty. -/
def holds : Value → Bool
  | null => false
  | bool b => b
  | int n => n != 0
  | float x => !x.isZero
  | text t => !t.isEmpty
  | styled t _ => !t.isEmpty
  | bytes content _ => !content.isEmpty
  | list items => !items.isEmpty
  | tuple items => !items.isEmpty
  | dict entries => !entries.isEmpty

mutual

/-- The text of a value inside a container. -/
def written : Value → Text
  | null => "None".toList
  | bool b => if b then "True".toList else "False".toList
  | int n => Text.ofInt n
  | float x => x.toText
  | text t => Text.quoted t
  | styled _ style => style.quoted
  | bytes content mutable =>
    if mutable then "bytearray(".toList ++ Text.quotedBytes content ++ [')']
    else Text.quotedBytes content
  | list items => '[' :: Text.join [',', ' '] (writtenItems items) ++ [']']
  | tuple items =>
    match writtenItems items with
    | [item] => '(' :: item ++ [',', ')']
    | items => '(' :: Text.join [',', ' '] items ++ [')']
  | dict entries => '{' :: Text.join [',', ' '] (writtenEntries entries) ++ ['}']

def writtenItems : List Value → List Text
  | [] => []
  | item :: more => written item :: writtenItems more

def writtenEntries : List (Value × Value) → List Text
  | [] => []
  | (key, value) :: more =>
    (written key ++ [':', ' '] ++ written value) :: writtenEntries more

end

/-- The text that a value is turned into. -/
def toText : Value → Text
  | text t => t
  | styled _ style => style.shown
  | value => value.written

/-- The text of a value that is asked for: what is a text stays as it is, and null counts as
missing. -/
def present : Value → Option Text
  | null => none
  | value => some (value.text?.getD value.toText)

/-- The text that a value is turned into even if it is one; null counts as missing. -/
def shown : Value → Option Text
  | null => none
  | value => some value.toText

/-- A dictionary from pairs written one after the other. -/
def ofPairs (pairs : List (Value × Value)) : Value := dict (Table.ofList pairs).entries

mutual

/-- A value that cannot be a key, among those that make up this one. -/
def notKey? : Value → Option Value
  | bytes content true => some (bytes content true)
  | list items => some (list items)
  | dict entries => some (dict entries)
  | tuple items => notKeyIn? items
  | _ => none

def notKeyIn? : List Value → Option Value
  | [] => none
  | item :: more => (notKey? item).or (notKeyIn? more)

end

@[simp] theorem sameKey_text (s t : Text) : (text s == text t) = (s == t) := by
  simp [BEq.beq, sameKey, text?]

/-- A text as key is every key that holds it. -/
theorem text_beq_eq (name : Text) (key : Value) :
    (text name == key) = (key.text? == some name) := by
  change sameKey (text name) key = _
  cases key with
  | text t =>
    rw [Bool.eq_iff_iff]
    simpa [sameKey, text?] using eq_comm
  | styled t style =>
    rw [Bool.eq_iff_iff]
    simpa [sameKey, text?] using eq_comm
  | _ => simp [sameKey, text?, number?]

theorem beq_text_eq (name : Text) (key : Value) :
    (key == text name) = (key.text? == some name) := by
  change sameKey key (text name) = _
  cases key with
  | text t => simp [sameKey, text?]
  | styled t style => simp [sameKey, text?]
  | _ => simp [sameKey, text?, number?]

@[simp] theorem present_text (t : Text) : (text t).present = some t := rfl

@[simp] theorem present_null : null.present = none := rfl

@[simp] theorem shown_text (t : Text) : (text t).shown = some t := rfl

@[simp] theorem shown_null : null.shown = none := rfl

theorem shown_eq_none_iff {value : Value} : value.shown = none ↔ value = null := by
  cases value <;> simp [shown]

end Value

/-- Values by name. Keys may be values of any kind. -/
abbrev Properties := Table Value Value

namespace Properties

/-- The text of the value at a name, which stays as it is if it is one. -/
def get? (props : Properties) (name : Text) : Option Text :=
  (props.find? (.text name)).bind Value.present

/-- The text that the value at a name is turned into, even if it is one. -/
def shown? (props : Properties) (name : Text) : Option Text :=
  (props.find? (.text name)).bind Value.shown

/-- The texts of all keys. -/
def names (props : Properties) : List Text := props.keys.map Value.toText

end Properties
end ConfigText
