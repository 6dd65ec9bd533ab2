import ConfigText.Chain
import Mathlib

/-!
What a chain is after any changes.

A change takes out only the first source of a name, and asking for a source stops at the first one.
Both speak of the only one, since no name comes twice: that holds of no sources at all, every change
keeps it, and so it holds after every run of changes.
-/

namespace ConfigText

namespace Source

/-- A source has no value where its properties have none, or null. -/
lemma get?_eq_none_iff (env : Environment) (source : Source) (key : Text) :
    source.get? env key = none ↔
      (source.properties env).find? (.text key) = none ∨
        (source.properties env).find? (.text key) = some .null := by
  rw [get?, Properties.shown?]
  cases (source.properties env).find? (.text key) with
  | none => simp
  | some value => simp [Value.shown_eq_none_iff]

end Source

namespace Chain

variable {sources : List Source}

/-! ### Runs of changes -/

/-- The sources of a list, each added behind those before it, and then changed. -/
def Change.run (initial : List Source) (changes : List Change) : List Source :=
  (initial.map addLast ++ changes).foldl Change.apply []

lemma sources_foldl_after (changes : List Change) (chain : Chain) :
    (changes.foldl after chain).sources = changes.foldl Change.apply chain.sources := by
  induction changes generalizing chain with
  | nil => rfl
  | cons change more ih => exact ih (chain.after change)

lemma sources_ofList (initial : List Source) :
    (ofList initial).sources = (initial.map Change.addLast).foldl Change.apply [] := by
  have hmap : ofList initial = (initial.map Change.addLast).foldl after .empty :=
    (List.foldl_map (f := Change.addLast) (g := after)).symm
  rw [hmap, sources_foldl_after]
  rfl

/-- The sources of a chain are those of its run. -/
lemma sources_eq_run (initial : List Source) (changes : List Change) :
    (changes.foldl after (ofList initial)).sources = Change.run initial changes := by
  rw [sources_foldl_after, sources_ofList, Change.run, List.foldl_append]

/-! ### The source of a name -/

lemma find?_name_eq_some_iff (h : (sources.map Source.name).Nodup) {name : Text}
    {source : Source} :
    sources.find? (·.name == name) = some source ↔ source ∈ sources ∧ source.name = name := by
  constructor
  · intro hfind
    have hname := List.find?_some hfind
    exact ⟨List.mem_of_find?_eq_some hfind, eq_of_beq hname⟩
  · rintro ⟨hmem, rfl⟩
    cases hfind : sources.find? (·.name == source.name) with
    | none =>
      have hnone := List.find?_eq_none.1 hfind source hmem
      exact absurd (beq_self_eq_true _) hnone
    | some other =>
      -- two sources of one name are the same source
      have hother : other ∈ sources := List.mem_of_find?_eq_some hfind
      have hname := List.find?_some hfind
      rw [List.inj_on_of_nodup_map h hother hmem (eq_of_beq hname)]

/-! ### What a chain answers -/

/-- A chain holds the sources in this order and nothing else, and all that it answers and does is
said by their order. -/
structure Holds (chain : Chain) (sources : List Source) : Prop where
  /-- No two sources have one name. -/
  names_nodup : (sources.map Source.name).Nodup
  sources_eq : chain.sources = sources
  /-- A source that is added first stands in front of all sources of other names. -/
  addFirst_eq : ∀ source, (chain.addFirst source).sources =
    source :: sources.filter (·.name != source.name)
  /-- A source that is added last stands behind all sources of other names. -/
  addLast_eq : ∀ source, (chain.addLast source).sources =
    sources.filter (·.name != source.name) ++ [source]
  /-- Taking out a name gives the source of this name, if there is one, and leaves the others. -/
  takeOut_eq : ∀ name, (chain.takeOut name).2.sources = sources.filter (·.name != name) ∧
    ∀ source, (chain.takeOut name).1 = some source ↔ source ∈ sources ∧ source.name = name
  get?_eq_some_iff : ∀ name source,
    chain.get? name = some source ↔ source ∈ sources ∧ source.name = name
  contains_iff : ∀ name, chain.contains name = true ↔ ∃ source ∈ sources, source.name = name
  size_eq : chain.size = sources.length
  /-- A value is that of the first source that has one. -/
  property?_eq_some_iff : ∀ env key value, chain.property? env key = some value ↔
    ∃ before source after, sources = before ++ source :: after ∧
      source.get? env key = some value ∧ ∀ other ∈ before, other.get? env key = none
  property?_eq_none_iff : ∀ env key,
    chain.property? env key = none ↔ ∀ source ∈ sources, source.get? env key = none

lemma holds_sources (chain : Chain) : chain.Holds chain.sources where
  names_nodup := chain.distinct
  sources_eq := rfl
  addFirst_eq source := congrArg (source :: ·) (without_eq_filter _ chain.distinct)
  addLast_eq source := congrArg (· ++ [source]) (without_eq_filter _ chain.distinct)
  takeOut_eq name :=
    ⟨without_eq_filter name chain.distinct, fun _ => find?_name_eq_some_iff chain.distinct⟩
  get?_eq_some_iff _ _ := find?_name_eq_some_iff chain.distinct
  contains_iff name := by
    rw [contains, Option.isSome_iff_exists]
    exact exists_congr fun _ => find?_name_eq_some_iff chain.distinct
  size_eq := rfl
  property?_eq_some_iff _ _ _ := List.findSome?_eq_some_iff
  property?_eq_none_iff _ _ := List.findSome?_eq_none_iff

/-- **A chain is an order of sources with names of their own.** After any list of sources and any
changes, a chain holds sources of which no two have one name. An added source is put in front or
behind, takes the place of the one with its name and leaves all others in their order; removing a
name gives back its source; and a property has the value of the first source that has one, which is
never null. -/
theorem holds_run (initial : List Source) (changes : List Change) :
    (changes.foldl after (ofList initial)).Holds (Change.run initial changes) ∧
    ∀ (env : Environment) (source : Source) (key : Text), source.get? env key = none ↔
      (source.properties env).find? (.text key) = none ∨
        (source.properties env).find? (.text key) = some .null := by
  refine ⟨?_, fun env source key => source.get?_eq_none_iff env key⟩
  rw [← sources_eq_run]
  exact holds_sources _

end Chain
end ConfigText
