import ConfigText.Chain
import ConfigText.Config.Fields

/-!
Properties with their placeholders resolved against the chain that they come from.
-/

namespace ConfigText

/-- The marks of the placeholders in property values, once lenient and once strict. -/
structure PropertyLookup where
  lenient : Config
  strict : Config

namespace PropertyLookup

/-- The marks by default. -/
def defaults : ConfigFields where
  opener := some (.text ['$', '{'])
  closer := some (.text ['}'])
  separator := some (.text [':'])
  lenient := none
  maxDepth := none

/-- A lookup for given marks. -/
def ofFields (fields : ConfigFields) : Except ConfigFault PropertyLookup := do
  let fields := defaults.override fields
  let lenient ← Config.ofFields { fields with lenient := some (.bool true) }
  let strict ← Config.ofFields { fields with lenient := some (.bool false) }
  return ⟨lenient, strict⟩

/-- Both sets of marks are made from the same fields. -/
theorem of_ofFields {fields : ConfigFields} {properties : PropertyLookup}
    (h : ofFields fields = .ok properties) :
    Config.ofFields { defaults.override fields with lenient := some (.bool true) }
        = .ok properties.lenient ∧
      Config.ofFields { defaults.override fields with lenient := some (.bool false) }
        = .ok properties.strict := by
  unfold ofFields at h
  dsimp only at h
  cases hlenient : Config.ofFields
      { defaults.override fields with lenient := some (.bool true) } with
  | error fault =>
    rw [hlenient] at h
    cases h
  | ok lenient =>
    rw [hlenient] at h
    cases hstrict : Config.ofFields
        { defaults.override fields with lenient := some (.bool false) } with
    | error fault =>
      rw [hstrict] at h
      cases h
    | ok strict =>
      rw [hstrict] at h
      cases h
      exact ⟨rfl, rfl⟩

variable (properties : PropertyLookup) (chain : Chain) (env : Environment)

/-- The resolved value of a property, cut off where the run nests deeper than `bound`. -/
def getWithin (bound : Nat) (name : Text) : Run (Option Text) :=
  match chain.property? env name with
  | none => return none
  | some value =>
    return some (← properties.lenient.resolveWithin (chain.lookup env) bound value)

/-- The resolved value of a property. -/
def get? (name : Text) : Run (Option Text) :=
  properties.getWithin chain env Config.nestingAllowed name

/-- What is said of a property that has to be there and is not. -/
def missingMessage (name : Text) : Text :=
  "Required key '".toList ++ name ++ "' not found".toList

/-- A text with its placeholders resolved, cut off where the run nests deeper than `bound`; those
without a value stay. -/
def resolveWithin (bound : Nat) (text : Text) : Run Text :=
  properties.lenient.resolveWithin (chain.lookup env) bound text

/-- A text with its placeholders resolved; those without a value stay. -/
def resolve (text : Text) : Run Text :=
  properties.resolveWithin chain env Config.nestingAllowed text

/-- A text with its placeholders resolved; each must have a value. -/
def resolveRequired (text : Text) : Run Text := properties.strict.resolve (chain.lookup env) text

/-- The resolved properties as a lookup. -/
def lookup : Lookup := fun name => (properties.get? chain env name).outcome

end PropertyLookup
end ConfigText
