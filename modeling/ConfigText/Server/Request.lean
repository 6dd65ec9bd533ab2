import ConfigText.Config.Fields
import ConfigText.Json.Reader
import ConfigText.Json.Values

/-!
Request bodies: a text with the syntax in which it is to be read, and for resolving the properties
to take values from. A body that does not fit is answered with all that is wrong with it, in the
order of the fields.
-/

namespace ConfigText

namespace Server

/-- A request as it arrives; no body is an empty one. -/
structure Request where
  method : Text
  path : Text
  body : List UInt8

/-- The syntax that a request asks for, as far as it does. -/
structure Override where
  opener : Option Text
  closer : Option Text
  /-- It may ask for no separator. -/
  separator : Option (Option Text)
  lenient : Option Bool
  deriving DecidableEq

namespace Override

/-- Nothing is asked for. -/
def none : Override := ⟨.none, .none, .none, .none⟩

def toFields (overrides : Override) : ConfigFields where
  opener := overrides.opener.map .text
  closer := overrides.closer.map .text
  separator := overrides.separator.map (·.elim .null .text)
  lenient := overrides.lenient.map .bool
  maxDepth := .none

end Override

/-- A request for the placeholders of a text. -/
structure ParseRequest where
  overrides : Override
  text : Text

/-- A request for a text with its placeholders resolved. -/
structure ResolveRequest where
  overrides : Override
  text : Text
  properties : Table Text (Option Text)
  /-- Variables of the environment stand behind the properties. -/
  withEnvironment : Bool

/-- A complaint about a body, and the part of the body that it is about. -/
structure Objection where
  complaint : Complaint
  subject : Value

/-- Why a body is refused. -/
inductive BodyFault
  | objections (list : List Objection)
  /-- The body cannot be read at all. -/
  | unreadable

namespace Body

/-- A part of a body as read: a value, or objections. -/
abbrev Read (α : Type) := Except (List Objection) α

/-- The objections to a part. -/
def objections {α : Type} : Read α → List Objection
  | .ok _ => []
  | .error list => list

def place : PlaceStep := .field "body".toList

/-- The fault of a body of which nothing more is read. -/
def fault (mismatch : Mismatch) (steps : List PlaceStep) (subject : Value) : BodyFault :=
  .objections [⟨⟨mismatch, place :: steps⟩, subject⟩]

/-- The members of a body. -/
def members (body : List UInt8) : Except BodyFault (List (Text × Json)) :=
  if body.isEmpty then .error (fault .missing [] .null)
  else
    match (Json.Encoding.decode body).map Json.read with
    | some (.ok (.object members)) => .ok members
    | some (.ok json) => .error (fault .notObject [] json.toValue)
    | some (.error (.malformed position)) =>
      .error (fault .notJson [.index position] (.dict []))
    | some (.error .oversized) | none => .error .unreadable

/-- The result of reading a part at a place in the body. -/
def placed {α : Type} (steps : List PlaceStep) (subject : Value) (read : Except Mismatch α) :
    Read α :=
  read.mapError fun mismatch => [⟨⟨mismatch, place :: steps⟩, subject⟩]

variable (members : List (Text × Json))

/-- A member that may be absent. -/
def optional {α : Type} (name : String) (read : Value → Except Mismatch α) : Read (Option α) :=
  match members.lookup name.toList with
  | some json => (placed [.field name.toList] json.toValue (read json.toValue)).map some
  | none => .ok none

/-- A member that must be there; it is the whole body that lacks it. -/
def required {α : Type} (name : String) (read : Value → Except Mismatch α) : Read α :=
  match members.lookup name.toList with
  | some json => placed [.field name.toList] json.toValue (read json.toValue)
  | none => placed [.field name.toList] (.dict (Json.toEntries members)) (.error .missing)

def boolOrNull : Value → Except Mismatch (Option Bool)
  | .null => .ok none
  | value => (Field.bool value).map some

/-- Null says no more than absence, but for the separator. -/
def override : Read Override :=
  let opener := optional members "prefix" Field.textOrNull
  let closer := optional members "suffix" Field.textOrNull
  let separator := optional members "separator" Field.textOrNull
  let lenient := optional members "ignore_unresolvable" boolOrNull
  match opener, closer, separator, lenient with
  | .ok opener, .ok closer, .ok separator, .ok lenient =>
    .ok ⟨opener.join, closer.join, separator, lenient.join⟩
  | _, _, _, _ =>
    .error (objections opener ++ objections closer ++ objections separator
      ++ objections lenient)

/-- The texts of a dictionary, where null stands for no text. -/
def textsByName (name : Text) : List (Text × Json) → Read (List (Text × Option Text))
  | [] => .ok []
  | (key, json) :: more =>
    match Field.textOrNull json.toValue, textsByName name more with
    | .ok text, .ok texts => .ok ((key, text) :: texts)
    | .ok _, .error rest => .error rest
    | .error mismatch, rest =>
      .error (⟨⟨mismatch, [place, .field name, .field key]⟩, json.toValue⟩ :: objections rest)

def properties (name : String) : Read (Table Text (Option Text)) :=
  match members.lookup name.toList with
  | none => .ok .empty
  | some (.object entries) => (textsByName name.toList entries).map Table.mk
  | some json => placed [.field name.toList] json.toValue (.error .notDict)

end Body

/-- The request for placeholders that a body makes. -/
def ParseRequest.read (body : List UInt8) : Except BodyFault ParseRequest := do
  let members ← Body.members body
  let overrides := Body.override members
  let text := Body.required members "text" Field.text
  match overrides, text with
  | .ok overrides, .ok text => return ⟨overrides, text⟩
  | _, _ => throw (.objections (Body.objections overrides ++ Body.objections text))

/-- The request for resolving that a body makes. -/
def ResolveRequest.read (body : List UInt8) : Except BodyFault ResolveRequest := do
  let members ← Body.members body
  let overrides := Body.override members
  let text := Body.required members "text" Field.text
  let properties := Body.properties members "properties"
  let withEnvironment := Body.optional members "include_environment" Field.bool
  match overrides, text, properties, withEnvironment with
  | .ok overrides, .ok text, .ok properties, .ok withEnvironment =>
    return ⟨overrides, text, properties, withEnvironment.getD false⟩
  | _, _, _, _ =>
    throw (.objections (Body.objections overrides ++ Body.objections text
      ++ Body.objections properties ++ Body.objections withEnvironment))

end Server
end ConfigText
