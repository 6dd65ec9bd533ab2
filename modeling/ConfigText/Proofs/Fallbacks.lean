import ConfigText.Proofs.Reach
import ConfigText.Proofs.Sources
import Mathlib

/-!
Sources behind a chain leave resolved texts alone.

Without defaults a strict run that returns has found a value for every name that it asked for. A
lookup that has more values has the same ones for these names, so it takes the same steps and
returns the same. A source that is added last only fills up names that had no value.
-/

namespace ConfigText

namespace Config

variable {c : Config} {value value' : Text → Option Text}

/-- Where there is a value for the whole key, nothing else is asked for. -/
lemma valueOf_eq_of_some {name new : Text} (h : value name = some new) :
    c.valueOf (.ofFunction value) name = ⟨[.asks name], .done (some new)⟩ := by
  have hask : (ask (.ofFunction value) name).outcome = .done (some new) := congrArg Outcome.done h
  rw [valueOf, Run.bind_of_done hask]
  rfl

/-- Without a separator a key without a value has no default. -/
lemma valueAt_eq_none (hsep : c.separator = none ∨ c.separator = some []) {name : Text}
    (h : value name = none) : c.valueAt value name = none := by
  rw [valueAt, h, split_of_no_separator hsep]
  rfl

section Strict

variable (hstrict : c.lenient = false) (hsep : c.separator = none ∨ c.separator = some [])
  (hmore : ∀ name new, value name = some new → value' name = some new)
include hstrict hsep hmore

/-- A placeholder that is replaced has a value, which the lookup with more values has as well. -/
lemma substitute_repeatedBy {expand expand' : Text → Run Text}
    (h : ∀ text, (expand text).RepeatedBy (expand' text)) (text key : Text) :
    (c.substitute (.ofFunction value) expand text key).RepeatedBy
      (c.substitute (.ofFunction value') expand' text key) := by
  refine .bind (fun _ _ => rfl) fun _ => .bind (h key) fun name => ?_
  cases hvalue : value name with
  | none =>
    -- the strict run fails here, so there is nothing to repeat
    intro found hfound
    obtain ⟨value?, hdone, hfound⟩ := Run.outcome_bind_done.1 hfound
    rw [valueOf_outcome, valueAt_eq_none hsep hvalue, Outcome.done.injEq] at hdone
    subst hdone
    simp [hstrict] at hfound
  | some new =>
    rw [valueOf_eq_of_some hvalue, valueOf_eq_of_some (hmore name new hvalue)]
    refine .bind (fun _ _ => rfl) fun value? => ?_
    cases value? with
    | none => exact fun _ _ => rfl
    | some new => exact .bind (h new) fun _ _ _ => rfl

/-- What a strict run without defaults returns, a lookup with more values returns on the same
way. -/
lemma expandAt_repeatedBy (fuel : ℕ) (path : List Text) (depth : ℕ) (text : Text) :
    (c.expandAt (.ofFunction value) fuel path depth text).RepeatedBy
      (c.expandAt (.ofFunction value') fuel path depth text) := by
  induction fuel generalizing path depth text with
  | zero => exact fun _ _ => rfl
  | succ fuel ih =>
    rw [expandAt, expandAt]
    refine .bind (fun _ _ => rfl) fun _ => ?_
    split
    · cases c.tooDeep depth with
      | some limit => exact fun _ _ => rfl
      | none =>
        refine sweep_rel Run.repeatedBy (fun key => ?_) _
        unfold fillAt
        split
        · exact fun _ _ => rfl
        · exact substitute_repeatedBy hstrict hsep hmore (ih _ _) text key
    · exact fun _ _ => rfl

end Strict
end Config

namespace Chain

/-- **A source added last leaves resolved texts alone.** Where placeholders without a value are
failures and no separator is set, a text that resolves against a chain resolves against the chain
with a new source behind it to the same result, and takes the same steps, whatever the source holds
and however deep a run may nest. -/
theorem resolveWithin_addLast (c : Config) (hstrict : c.lenient = false)
    (hsep : c.separator = none ∨ c.separator = some []) (chain : Chain) {source : Source}
    (hnew : source.name ∉ chain.names) (env : Environment) {text result : Text} {bound : ℕ}
    (h : (c.resolveWithin (chain.lookup env) bound text).outcome = .done result) :
    c.resolveWithin ((chain.addLast source).lookup env) bound text =
      c.resolveWithin (chain.lookup env) bound text := by
  have hmore : ∀ name new, chain.property? env name = some new →
      (chain.addLast source).property? env name = some new := by
    intro name new hvalue
    rw [property?_addLast chain hnew, hvalue, Option.some_or]
  rw [Config.resolveWithin_eq] at h ⊢
  rw [Config.resolveWithin_eq]
  exact Config.expandAt_repeatedBy hstrict hsep hmore bound [] 0 text result h

/-- Braces without defaults, where a placeholder without a value is a failure. -/
def demandingBraces : Config := { Config.braces with separator := none, lenient := false }

/-- The value of `a1` in the first source refers to one in the second, and both have one for `b`. -/
def layeredChain : Chain := .ofList
  [{ name := ['p']
     origin := .table ⟨[(.text ['a', '1'], .text ['x', '$', '{', 'c', '}']),
       (.text ['b'], .int 1)]⟩
     name_ne := by simp },
   { name := ['q']
     origin := .table ⟨[(.text ['b'], .int 2), (.text ['c'], .text ['y'])]⟩
     name_ne := by simp }]

/-- A source with another value for `a1`, and with a circular one. -/
def coveredSource : Source where
  name := ['r']
  origin := .table ⟨[(.text ['a', '1'], .text ['z']),
    (.text ['a', '2'], .text ['$', '{', 'a', '2', '}'])]⟩
  name_ne := by simp

/-- With that source behind the chain `${a${b}}` is still `xy`. -/
theorem layered_resolves_as_before :
    (demandingBraces.lenient = false ∧
      (demandingBraces.separator = none ∨ demandingBraces.separator = some []) ∧
      coveredSource.name ∉ layeredChain.names ∧
      (demandingBraces.resolveWithin (layeredChain.lookup .empty) 4
        ['$', '{', 'a', '$', '{', 'b', '}', '}']).outcome = .done ['x', 'y']) ∧
    demandingBraces.resolveWithin ((layeredChain.addLast coveredSource).lookup .empty) 4
        ['$', '{', 'a', '$', '{', 'b', '}', '}'] =
      demandingBraces.resolveWithin (layeredChain.lookup .empty) 4
        ['$', '{', 'a', '$', '{', 'b', '}', '}'] := by
  have hnew : coveredSource.name ∉ layeredChain.names := by decide
  have hdone : (demandingBraces.resolveWithin (layeredChain.lookup .empty) 4
      ['$', '{', 'a', '$', '{', 'b', '}', '}']).outcome = .done ['x', 'y'] := by decide +kernel
  exact ⟨⟨rfl, .inl rfl, hnew, hdone⟩,
    resolveWithin_addLast demandingBraces rfl (.inl rfl) layeredChain hnew .empty hdone⟩

end Chain
end ConfigText
