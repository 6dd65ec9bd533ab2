import ConfigText.Placeholder
import ConfigText.Run

/-!
Resolving: every placeholder of a text is replaced by the value of its key, where keys and values
are resolved first. A key that is open already is a failure, so is nesting beyond the limit, and a
key without a value is one unless the configuration is lenient.
-/

namespace ConfigText

/-- A source of values: it has one for a name, has none, or fails. -/
abbrev Lookup := Text → Outcome (Option Text)

/-- The lookup that never fails. -/
def Lookup.ofFunction (value : Text → Option Text) : Lookup := fun name => .done (value name)

/-- A run that keeps the set of the keys that are open. -/
abbrev Tracked := StateT (List Text) Run

namespace Config

variable (c : Config) (lookup : Lookup)

/-- The value for one name. -/
def ask (name : Text) : Run (Option Text) := do
  Run.note (.asks name)
  Run.ofOutcome (lookup name)

/-- The value for an expanded key: for the whole key, else for the name in front of the first
separator, else the default behind it. -/
def valueOf (key : Text) : Run (Option Text) := do
  match ← ask lookup key with
  | some value => return some value
  | none =>
    match c.split key with
    | (_, none) => return none
    | (name, some default) =>
      let value ← ask lookup name
      return some (value.getD default)

/-- Opens a key, which must not be open. -/
def openKey (key : Text) : Tracked Unit := do
  if key ∈ (← get) then Run.fail (.circular key)
  modify (key :: ·)
  Run.note (.opens key)

/-- Closes a key. -/
def closeKey (key : Text) : Tracked Unit := do
  modify (·.erase key)
  Run.note (.closes key)

/-- What a placeholder in `text` is replaced by, where `expand` resolves its key and its value;
`none` leaves it as it is. -/
def fill (expand : Text → Tracked Text) (text key : Text) : Tracked (Option Text) := do
  openKey key
  let name ← expand key
  match ← c.valueOf lookup name with
  | some value =>
    let value ← expand value
    Run.note (.fills name)
    closeKey key
    return some value
  | none =>
    if c.lenient then
      Run.note (.keeps key)
      closeKey key
      return none
    else Run.fail (.unresolvable name text)

/-- The text with its placeholders from a position on replaced in place. Reading goes on right
behind what was put in, or behind the placeholder if it stays. -/
def splice {m : Type → Type} [Monad m] (fill : Text → m (Option Text)) (text : Text)
    (position : Nat) : m Text :=
  match _hs : Text.find? c.opener text position with
  | none => pure text
  | some start =>
    match _he : c.end? text start with
    | none => splice fill text (start + c.opener.length)
    | some stop => do
      match ← fill (c.keyBetween text start stop) with
      | some value =>
        splice fill (text.take start ++ value ++ text.drop (stop + c.closer.length))
          (start + value.length)
      | none => splice fill text (stop + c.closer.length)
termination_by text.length - position
decreasing_by
  · have := Text.find?_bounds c.opener_ne _hs
    have := List.length_pos_iff.2 c.opener_ne
    omega
  · have := Text.find?_bounds c.opener_ne _hs
    have := c.end?_bounds _he
    have := List.length_pos_iff.2 c.closer_ne
    simp only [List.length_append, List.length_take, List.length_drop]
    omega
  · have := Text.find?_bounds c.opener_ne _hs
    have := c.end?_bounds _he
    have := List.length_pos_iff.2 c.closer_ne
    omega

/-- Nesting has gone beyond the limit. -/
def tooDeep (depth : Nat) : Option Nat := c.maxDepth.filter (· < depth)

/-- The text with its placeholders replaced, `depth` keys being open around it. `fuel` bounds how
much deeper the run may nest before it is cut off. -/
def expand : Nat → Nat → Text → Tracked Text
  | 0, _, _ => Run.cutOff
  | fuel + 1, depth, text => do
    Run.note (.enters depth (← get) text)
    if c.opens text then
      match c.tooDeep depth with
      | some limit => Run.fail (.tooDeep limit text)
      | none => c.splice (c.fill lookup (expand fuel (depth + 1)) text) text 0
    else return text

/-- The text with its placeholders replaced, cut off where the run nests deeper than `bound`. -/
def resolveWithin (bound : Nat) (text : Text) : Run Text :=
  (c.expand lookup bound 0 text).run' []

/-- How deep a run may nest where the configuration sets no limit. -/
def nestingAllowed : Nat := 1000

/-- The text with its placeholders replaced. -/
def resolve (text : Text) : Run Text := c.resolveWithin lookup nestingAllowed text

end Config
end ConfigText
