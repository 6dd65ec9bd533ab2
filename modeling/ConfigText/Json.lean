import ConfigText.Number.Binary64
import ConfigText.Table

/-!
JSON values. Members keep their order; whole numbers and numbers with a fraction or an exponent
are told apart.
-/

namespace ConfigText

inductive Json
  | null
  | bool (b : Bool)
  | int (n : Int)
  | float (x : Binary64)
  | text (t : Text)
  | array (items : List Json)
  | object (members : List (Text × Json))

namespace Json

instance : Inhabited Json := ⟨null⟩

/-- A member of an object, by its name. -/
def member? (json : Json) (name : String) : Option Json :=
  match json with
  | object members => members.lookup name.toList
  | _ => none

/-- An object with members named by literals. -/
def ofMembers (members : List (String × Json)) : Json :=
  object (members.map fun (name, value) => (name.toList, value))

/-- A text, or null. -/
def ofText? : Option Text → Json
  | some t => text t
  | none => null

def ofTexts (texts : List Text) : Json := array (texts.map text)

end Json
end ConfigText
