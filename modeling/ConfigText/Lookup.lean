import ConfigText.Resolve
import ConfigText.Value

/-!
Lookups over values. Whatever answers for a name, null counts as missing, what is a text stays as it
is and every other value is turned into its text.

A run works on what texts hold. A text of a kind of its own comes out of it as it went in, unless
something is put into it; what comes out then is a plain text.
-/

namespace ConfigText

/-- Why a call makes no sense, whatever the configuration. -/
inductive Misuse
  | noText
  /-- A value of this kind cannot be asked for values. -/
  | noLookup (kind : Text)
  deriving DecidableEq

def Misuse.message : Misuse → Text
  | noText => "text must not be None".toList
  | noLookup kind =>
    "Unsupported lookup type ".toList ++ kind
      ++ ": expected a mapping, a callable or an object with resolve_placeholder()".toList

namespace Lookup

/-- The lookup that a function to values makes. -/
def ofValues (value : Text → Value) : Lookup := ofFunction fun name => (value name).present

/-- The lookup in a table. -/
def ofProperties (props : Properties) : Lookup := ofFunction props.get?

/-- A dictionary can be asked for values, nothing else can. -/
def ofValue : Value → Except Misuse Lookup
  | .dict entries => .ok (ofProperties ⟨entries⟩)
  | value => .error (.noLookup value.kind)

end Lookup

/-- A placeholder of the text itself is replaced in what follows of a trace, and not only ones in
keys and values; so many keys are open in front. -/
def Run.replacesIn (keys : Nat) : List Event → Bool
  | [] => false
  | .opens _ :: more => replacesIn (keys + 1) more
  | .closes _ :: more => replacesIn (keys - 1) more
  | .fills _ :: more => keys == 1 || replacesIn keys more
  | _ :: more => replacesIn keys more

/-- What a text of a kind of its own resolves to. -/
def Value.restyled (style : Style) (trace : List Event) (result : Text) : Value :=
  if Run.replacesIn 0 trace then .text result else .styled result style

namespace Config

variable (c : Config) (lookup : Lookup)

/-- The text resolved against the lookup, if there is a text and the lookup is one. A missing text
is noticed first. -/
def resolve? (text : Option Text) (lookup : Except Misuse Lookup) : Except Misuse (Run Text) :=
  match text with
  | none => .error .noText
  | some text => lookup.map (c.resolve · text)

mutual

/-- A value with every text in it resolved, except in keys of dictionaries, cut off where the run of
a text nests deeper than `bound`. -/
def resolveValueWithin (bound : Nat) : Value → Run Value
  | .text t => return .text (← c.resolveWithin lookup bound t)
  | .styled t style =>
    let run := c.resolveWithin lookup bound t
    return .restyled style run.trace (← run)
  | .list items => return .list (← resolveItemsWithin bound items)
  | .tuple items => return .tuple (← resolveItemsWithin bound items)
  | .dict entries => return .dict (← resolveEntriesWithin bound entries)
  | .null => return .null
  | .bool b => return .bool b
  | .int n => return .int n
  | .float x => return .float x
  | .bytes content mutable => return .bytes content mutable

def resolveItemsWithin (bound : Nat) : List Value → Run (List Value)
  | [] => return []
  | item :: more => do
    let item ← resolveValueWithin bound item
    let more ← resolveItemsWithin bound more
    return item :: more

def resolveEntriesWithin (bound : Nat) : List (Value × Value) → Run (List (Value × Value))
  | [] => return []
  | (key, value) :: more => do
    let value ← resolveValueWithin bound value
    let more ← resolveEntriesWithin bound more
    return (key, value) :: more

end

/-- A value with every text in it resolved, except in keys of dictionaries. -/
def resolveValue (value : Value) : Run Value := c.resolveValueWithin lookup nestingAllowed value

end Config
end ConfigText
