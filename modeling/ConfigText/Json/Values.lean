import ConfigText.Json
import ConfigText.Text.Utf8
import ConfigText.Value

/-!
JSON for configuration values and the other way round, and which values can be sent as JSON.
-/

namespace ConfigText.Json

mutual

/-- The value that a JSON value stands for. -/
def toValue : Json → Value
  | null => .null
  | bool b => .bool b
  | int n => .int n
  | float x => .float x
  | text t => .text t
  | array items => .list (toValues items)
  | object members => .dict (toEntries members)

def toValues : List Json → List Value
  | [] => []
  | item :: more => toValue item :: toValues more

def toEntries : List (Text × Json) → List (Value × Value)
  | [] => []
  | (name, value) :: more => (.text name, toValue value) :: toEntries more

end

/-- The text that bytes write, where they write one. -/
def decoded (content : List UInt8) : Text := (Text.ofUtf8 content).toOption.getD []

/-- The name of a member for a key. -/
def nameOf : Value → Text
  | .null => "null".toList
  | .bool b => if b then "true".toList else "false".toList
  | .styled t _ => t
  | .bytes content _ => decoded content
  | key => key.toText

mutual

/-- The JSON for a value; a tuple becomes an array. Bytes that can be changed are taken for a
dictionary, and only without any byte they are one. -/
def ofValue : Value → Json
  | .null => null
  | .bool b => bool b
  | .int n => int n
  | .float x => float x
  | .text t => text t
  | .styled t _ => text t
  | .bytes content mutable => if mutable then object [] else text (decoded content)
  | .list items => array (ofValues items)
  | .tuple items => array (ofValues items)
  | .dict entries => object (ofEntries entries)

def ofValues : List Value → List Json
  | [] => []
  | item :: more => ofValue item :: ofValues more

def ofEntries : List (Value × Value) → List (Text × Json)
  | [] => []
  | (key, value) :: more => (nameOf key, ofValue value) :: ofEntries more

end

end ConfigText.Json

namespace ConfigText.Value

/-! ### Sending -/

/-- Entries whose keys start like this are not sent. -/
def privateStart : Text := "_sa".toList

def isPrivate (key : Value) : Bool := key.text?.any privateStart.isPrefixOf

mutual

/-- A value without private entries. -/
def published : Value → Value
  | list items => list (publishedItems items)
  | tuple items => tuple (publishedItems items)
  | dict entries => dict (publishedEntries entries)
  | value => value

def publishedItems : List Value → List Value
  | [] => []
  | item :: more => published item :: publishedItems more

def publishedEntries : List (Value × Value) → List (Value × Value)
  | [] => []
  | (key, value) :: more =>
    if isPrivate key then publishedEntries more
    else (key, published value) :: publishedEntries more

end

mutual

/-- Every number in the value is finite. -/
def allFinite : Value → Bool
  | float (.finite ..) => true
  | float _ => false
  | list items => allFiniteItems items
  | tuple items => allFiniteItems items
  | dict entries => allFiniteEntries entries
  | _ => true

def allFiniteItems : List Value → Bool
  | [] => true
  | item :: more => allFinite item && allFiniteItems more

def allFiniteEntries : List (Value × Value) → Bool
  | [] => true
  | (key, value) :: more => allFinite key && allFinite value && allFiniteEntries more

end

/-- Why a value cannot be sent. -/
inductive SendFault
  /-- A key is a tuple, for which there is no name. -/
  | tupleKey
  /-- Bytes write no text. -/
  | undecodable (fault : Text.Utf8Fault)
  /-- Bytes that can be changed are no dictionary. -/
  | noDictionary
  /-- A number is not finite. -/
  | notFinite
  deriving DecidableEq

def SendFault.message : SendFault → Text
  | tupleKey => "unhashable type: 'list'".toList
  | undecodable fault => fault.message
  | noDictionary =>
    "[TypeError('cannot convert dictionary update sequence element #0 to a sequence'), ".toList
      ++ "TypeError('vars() argument must have __dict__ attribute')]".toList
  | notFinite => "Out of range float values are not JSON compliant".toList

def isTuple : Value → Bool
  | tuple _ => true
  | _ => false

mutual

/-- What keeps a value from becoming JSON. That a key has no name shows once its value is done. -/
def encodeFault? : Value → Option SendFault
  | bytes content true => if content.isEmpty then none else some .noDictionary
  | bytes content false =>
    match Text.ofUtf8 content with
    | .ok _ => none
    | .error fault => some (.undecodable fault)
  | list items => encodeFaultIn? items
  | tuple items => encodeFaultIn? items
  | dict entries => encodeFaultAmong? entries
  | _ => none

def encodeFaultIn? : List Value → Option SendFault
  | [] => none
  | item :: more => (encodeFault? item).or (encodeFaultIn? more)

def encodeFaultAmong? : List (Value × Value) → Option SendFault
  | [] => none
  | (key, value) :: more =>
    (encodeFault? key).or ((encodeFault? value).or
      (if key.isTuple then some .tupleKey else encodeFaultAmong? more))

end

/-- What keeps values from being sent together. Numbers are looked at last. -/
def sendFault? (values : List Value) : Option SendFault :=
  let published := values.map published
  (encodeFaultIn? published).or (if allFiniteItems published then none else some .notFinite)

end ConfigText.Value
