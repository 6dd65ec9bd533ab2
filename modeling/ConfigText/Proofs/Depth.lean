import ConfigText.Chain
import ConfigText.Proofs.Endless
import Mathlib

/-!
How deep a run without defaults nests.

Where no separator cuts defaults out of keys, all that a run goes on with stands in the text or in
a value. Finitely many values have finitely many parts, so the run ends, and since no key is open
twice it nests no deeper than there are parts.
-/

namespace ConfigText

lemma Chain.finite_property? (chain : Chain) (env : Environment) :
    {new | ∃ name, chain.property? env name = some new}.Finite := by
  have hsources : (⋃ source ∈ {s | s ∈ chain.sources},
      {new | ∃ name, (source.properties env).shown? name = some new}).Finite :=
    (List.finite_toSet chain.sources).biUnion fun source _ =>
      (source.properties env).finite_texts Value.shown
  refine hsources.subset ?_
  rintro new ⟨name, h⟩
  obtain ⟨source, hs, hv⟩ := List.exists_of_findSome?_eq_some h
  exact Set.mem_biUnion hs ⟨name, hv⟩

namespace Config

variable {c : Config} {value : Text → Option Text} {text : Text}

/-- Without defaults a run does not leave the parts of the text and of the values. -/
lemma pool_parts (hsep : c.separator = none ∨ c.separator = some []) :
    c.Pool value (parts value text) (parts value text) where
  hole := parts_of_hole_mem
  goesOn := by
    intro fuel path depth key part hkey hpart
    cases hpart with
    | key => exact hkey
    | found hn hv =>
      rcases valueAt_cases hv with ⟨other, -, hother⟩ | hdefault
      · exact .inr ⟨other, _, hother, List.infix_rfl⟩
      · rw [split_of_no_separator hsep] at hdefault
        cases hdefault

/-- Resolving the text ends, with a text, with a circular key or with a key that has no value, and
no text in it lies deeper than the bound. -/
def EndsWithin (c : Config) (lookup : Lookup) (text : Text) (bound : ℕ) : Prop :=
  ∃ run, c.Resolves lookup text run ∧
    ((∃ result, run.outcome = .done result) ∨ (∃ key, run.outcome = .failed (.circular key)) ∨
      ∃ key inside, run.outcome = .failed (.unresolvable key inside)) ∧
    ∀ depth path inside, .enters depth path inside ∈ run.trace → depth ≤ bound

lemma endsWithin_of_pool {texts keys : Set Text} (hmax : c.maxDepth = none)
    (pool : c.Pool value texts keys) (hfin : keys.Finite) (ht : text ∈ texts) :
    c.EndsWithin (.ofFunction value) text keys.ncard := by
  obtain ⟨run, hrun⟩ := pool.exists_resolves hfin ht
  obtain ⟨hne, bound, rfl⟩ := id hrun
  refine ⟨_, hrun, ?_, fun depth path inside h => pool.depth_le hfin ht h⟩
  rw [resolveWithin_eq] at hne ⊢
  cases ho : (c.expandAt (.ofFunction value) bound [] 0 text).outcome with
  | done result => exact .inl ⟨result, rfl⟩
  | failed failure =>
    cases failure with
    | circular key => exact .inr (.inl ⟨key, rfl⟩)
    | unresolvable key inside => exact .inr (.inr ⟨key, inside, rfl⟩)
    | tooDeep limit inside => exact absurd ho (expandAt_ne_tooDeep hmax)
  | exhausted => exact absurd ho hne

/-- **Without defaults resolving ends.** Where no separator is set and nesting has no limit, a text
ends against every lookup that has finitely many values, so against every table and every chain of
sources. It never nests deeper than the text and the values have parts. -/
theorem ends_without_separator (c : Config) (hsep : c.separator = none ∨ c.separator = some [])
    (hmax : c.maxDepth = none) (text : Text) :
    (∀ value : Text → Option Text, {new | ∃ name, value name = some new}.Finite →
      (parts value text).Finite ∧
        c.EndsWithin (.ofFunction value) text (parts value text).ncard) ∧
    (∀ props : Properties,
      c.EndsWithin (.ofProperties props) text (parts props.get? text).ncard) ∧
    ∀ (chain : Chain) (env : Environment),
      c.EndsWithin (chain.lookup env) text (parts (chain.property? env) text).ncard := by
  have hends (value : Text → Option Text) (hfin : {new | ∃ name, value name = some new}.Finite) :
      c.EndsWithin (.ofFunction value) text (parts value text).ncard :=
    endsWithin_of_pool hmax (pool_parts hsep) (finite_parts hfin text) (.inl List.infix_rfl)
  refine ⟨fun value hfin => ⟨finite_parts hfin text, hends value hfin⟩, fun props => ?_,
    fun chain env => ?_⟩
  · exact hends props.get? (props.finite_texts Value.present)
  · exact hends (chain.property? env) (chain.finite_property? env)

/-- The usual marks without defaults. -/
def plainBraces : Config := { braces with separator := none }

/-- A name that is put together, and values that are longer than what they replace. -/
def growingValues : Properties :=
  ⟨[(.text ['a', '1'], .text ['$', '{', 'c', '}', ':', '$', '{', 'c', '}']),
    (.text ['b'], .text ['1']), (.text ['c'], .text ['x', 'x', 'x', 'x'])]⟩

/-- `${a${b}}` ends against values that grow. -/
theorem growingValues_endsWithin :
    ((plainBraces.separator = none ∨ plainBraces.separator = some []) ∧
      plainBraces.maxDepth = none ∧
      {new | ∃ name, growingValues.get? name = some new}.Finite) ∧
    plainBraces.EndsWithin (.ofFunction growingValues.get?)
      ['$', '{', 'a', '$', '{', 'b', '}', '}']
      (parts growingValues.get? ['$', '{', 'a', '$', '{', 'b', '}', '}']).ncard := by
  refine ⟨⟨.inl rfl, rfl, (growingValues.finite_texts Value.present)⟩, ?_⟩
  exact ((ends_without_separator plainBraces (.inl rfl) rfl _).1 growingValues.get?
    (growingValues.finite_texts Value.present)).2

end Config
end ConfigText
