import ConfigText.Text

/-!
Runs: what resolving yields, and what it does on the way. A run ends with a value or a failure,
or it is cut off when it nests deeper than it was allowed to.
-/

namespace ConfigText

/-- Why a text cannot be resolved. -/
inductive Failure
  /-- A key lies on its own path. -/
  | circular (key : Text)
  /-- A key without a value, and the text it stands in. -/
  | unresolvable (key text : Text)
  /-- Nesting goes beyond the limit at this text. -/
  | tooDeep (limit : Nat) (text : Text)
  deriving DecidableEq

def Failure.message : Failure → Text
  | .circular key =>
    "Circular placeholder reference '".toList ++ key ++ "' in property definitions".toList
  | .unresolvable key text =>
    "Could not resolve placeholder '".toList ++ key ++ "' in value \"".toList ++ text
      ++ "\"".toList
  | .tooDeep limit text =>
    "Placeholder nesting exceeded maximum depth of ".toList ++ Text.ofNat limit
      ++ " while resolving \"".toList ++ text ++ "\"".toList

/-- How a run ends. -/
inductive Outcome (α : Type)
  | done (value : α)
  | failed (failure : Failure)
  /-- The run was cut off. -/
  | exhausted
  deriving DecidableEq

/-- A step of a run. -/
inductive Event
  /-- Resolving of a text begins, with the keys open around it. -/
  | enters (depth : Nat) (path : List Text) (text : Text)
  /-- A placeholder is opened. -/
  | opens (key : Text)
  /-- A value is asked for. -/
  | asks (name : Text)
  /-- A placeholder is replaced by the value found for its expanded key. -/
  | fills (name : Text)
  /-- A placeholder without a value is left as it is. -/
  | keeps (key : Text)
  /-- A placeholder is done with. -/
  | closes (key : Text)
  deriving DecidableEq

structure Run (α : Type) where
  trace : List Event
  outcome : Outcome α
  deriving DecidableEq

namespace Run

variable {α β γ : Type}

def pure (value : α) : Run α := ⟨[], .done value⟩

def bind (run : Run α) (next : α → Run β) : Run β :=
  match run.outcome with
  | .done value =>
    let rest := next value
    ⟨run.trace ++ rest.trace, rest.outcome⟩
  | .failed failure => ⟨run.trace, .failed failure⟩
  | .exhausted => ⟨run.trace, .exhausted⟩

instance : Monad Run where
  pure := pure
  bind := bind

/-- A run that fails at once. -/
def fail (failure : Failure) : Run α := ⟨[], .failed failure⟩

/-- A run that is cut off at once. -/
def cutOff : Run α := ⟨[], .exhausted⟩

/-- A run that notes an event and goes on. -/
def note (event : Event) : Run Unit := ⟨[event], .done ()⟩

/-- A run that does nothing but end. -/
def ofOutcome (outcome : Outcome α) : Run α := ⟨[], outcome⟩

/-- The names asked for, in order. -/
def asked (run : Run α) : List Text :=
  run.trace.filterMap fun
    | .asks name => some name
    | _ => none

@[simp] theorem pure_bind (value : α) (next : α → Run β) : (pure value).bind next = next value := by
  simp [pure, bind]

@[simp] theorem bind_pure (run : Run α) : run.bind pure = run := by
  obtain ⟨trace, outcome⟩ := run
  cases outcome <;> simp [bind, pure]

theorem bind_assoc (run : Run α) (f : α → Run β) (g : β → Run γ) :
    (run.bind f).bind g = run.bind fun value => (f value).bind g := by
  obtain ⟨trace, outcome⟩ := run
  cases outcome with
  | done value =>
    rcases h : f value with ⟨steps, result⟩
    cases result <;> simp [bind, h]
  | failed => rfl
  | exhausted => rfl

@[simp] theorem fail_bind (failure : Failure) (next : α → Run β) :
    (fail failure).bind next = fail failure := rfl

@[simp] theorem cutOff_bind (next : α → Run β) : cutOff.bind next = cutOff := rfl

instance : LawfulMonad Run :=
  LawfulMonad.mk' Run bind_pure pure_bind bind_assoc

end Run
end ConfigText
