import ConfigText.Proofs.CycleCheck
import ConfigText.Proofs.Splicing
import ConfigText.PropertyLookup
import Mathlib

/-!
What one more open key changes about a run.

Where more keys are open a run is the same, or it fails for a circular key. If the key that is open
in addition is the one whose value is being resolved, then it fails so only where the run without it
does, later: that one opens the key itself and comes to the same value again, with even more keys
open. So a property can be read by its name or through a placeholder with its name.
-/

namespace ConfigText

namespace Config

variable {c : Config} {lookup : Lookup} {value : Text → Option Text} {name new : Text}

/-- Where more keys are open, a run is the same or fails for a circular key. -/
lemma expandAt_agree_of_subset (hmax : c.maxDepth = none) (lookup : Lookup)
    {path more : List Text} (hsub : path ⊆ more) (fuel depth depth' : ℕ) (text : Text) :
    Agree (c.expandAt lookup fuel more depth' text) (c.expandAt lookup fuel path depth text) := by
  induction fuel generalizing path more depth depth' text with
  | zero => exact .inl rfl
  | succ fuel ih =>
    rw [expandAt_succ (tooDeep_eq_none hmax depth), expandAt_succ (tooDeep_eq_none hmax depth')]
    refine .bind (.inl rfl) fun _ => sweep_rel agree (fun key => ?_) _
    unfold fillAt
    by_cases hmore : key ∈ more
    · rw [if_pos hmore]
      exact .inr ⟨key, rfl⟩
    · have hpath : key ∉ path := fun hmem => hmore (hsub hmem)
      rw [if_neg hmore, if_neg hpath]
      exact substitute_rel agree (ih (List.cons_subset_cons key hsub) _ _) text key

/-! ### Runs that are circular where others are -/

/-- The run fails for a circular key. -/
def IsCircular {α : Type} (r : Run α) : Prop := ∃ key, r.outcome = .failed (.circular key)

lemma Agree.isCircular {α : Type} {r s : Run α} (h : Agree r s) (hs : IsCircular s) :
    IsCircular r := by
  obtain heq | hr := h
  · rwa [IsCircular, heq]
  · exact hr

lemma IsCircular.outcome_ne_exhausted {α : Type} {r : Run α} (h : IsCircular r) :
    r.outcome ≠ .exhausted := by
  obtain ⟨key, hkey⟩ := h
  simp [hkey]

/-- If the first run returns, the second one returns the same, and if the first one fails for a
circular key, so does the second. -/
def FollowsTo {α : Type} (r s : Run α) : Prop := r.ReturnsAs s ∧ (IsCircular r → IsCircular s)

lemma FollowsTo.bind {α β : Type} {r s : Run α} {f g : α → Run β} (h : FollowsTo r s)
    (hn : ∀ a, FollowsTo (f a) (g a)) : FollowsTo (r >>= f) (s >>= g) := by
  refine ⟨h.1.bind fun a => (hn a).1, ?_⟩
  rintro ⟨key, hk⟩
  rcases Run.outcome_bind_failed.1 hk with hr | ⟨a, ha, hf⟩
  · obtain ⟨key', hs⟩ := h.2 ⟨key, hr⟩
    exact ⟨key', Run.outcome_bind_failed.2 (.inl hs)⟩
  · have hs := h.1 a ha
    obtain ⟨key', hg⟩ := (hn a).2 ⟨key, hf⟩
    exact ⟨key', Run.outcome_bind_failed.2 (.inr ⟨a, hs, hg⟩)⟩

def followsTo : Run.Simulation := ⟨FollowsTo, fun _ => ⟨fun _ h => h, id⟩, .bind⟩

lemma expandAt_of_not_opens (hplain : c.opens name = false) (lookup : Lookup) (fuel depth : ℕ)
    (path : List Text) : (c.expandAt lookup (fuel + 1) path depth name).outcome = .done name := by
  rw [expandAt, hplain, Run.outcome_note_bind]
  rfl

/-- A placeholder by itself ends as the value of its name does where the name is open. -/
lemma outcome_resolveWithin_enclose (hplain : c.opens name = false) (hvalue : value name = some new)
    (hclosing : c.closing 0 (name ++ c.closer) = some (name, [])) (bound : ℕ) :
    (c.resolveWithin (.ofFunction value) (bound + 1) (c.enclose name)).outcome =
      (c.expandAt (.ofFunction value) bound [name] 1 new).outcome := by
  rw [resolveWithin_succ, c.pieces_enclose hclosing, Run.outcome_note_bind]
  cases bound with
  | zero => rfl
  | succ bound =>
    have hfound : c.valueAt value name = some new := by rw [valueAt, hvalue, Option.some_or]
    have hname := expandAt_of_not_opens hplain (.ofFunction value) bound 1 [name]
    exact outcome_sweep_found rfl hname hfound

section Reentry

variable (hmax : c.maxDepth = none) (hplain : c.opens name = false)
  (hvalue : value name = some new)
include hmax hplain hvalue

/-- A name whose value is circular is circular itself, whatever else is open. -/
lemma substitute_circular {fuel bound depth depth' : ℕ} {path : List Text} {text : Text}
    (hle : bound ≤ fuel)
    (hnew : IsCircular (c.expandAt (.ofFunction value) bound [name] depth new)) :
    IsCircular (c.substitute (.ofFunction value)
      (c.expandAt (.ofFunction value) fuel (name :: path) depth') text name) := by
  obtain ⟨fuel, rfl⟩ : ∃ n, fuel = n + 1 := by
    cases fuel with
    | zero =>
      obtain rfl : bound = 0 := by omega
      exact absurd rfl hnew.outcome_ne_exhausted
    | succ fuel => exact ⟨fuel, rfl⟩
  have hopen : IsCircular (c.expandAt (.ofFunction value) bound (name :: path) depth' new) := by
    have hsub : [name] ⊆ name :: path := List.cons_subset_cons name (List.nil_subset path)
    exact (expandAt_agree_of_subset hmax _ hsub bound depth depth' new).isCircular hnew
  obtain ⟨key, hk⟩ : IsCircular
      (c.expandAt (.ofFunction value) (fuel + 1) (name :: path) depth' new) := by
    have hends := hopen.outcome_ne_exhausted
    exact (expandAt_continues hle (name :: path) depth' new).eq hends ▸ hopen
  have hfound : c.valueAt value name = some new := by rw [valueAt, hvalue, Option.some_or]
  have hname := expandAt_of_not_opens hplain (.ofFunction value) fuel depth' (name :: path)
  exact ⟨key, substitute_failed.2 (.inl ⟨new, .found hname hfound, hk⟩)⟩

/-- Let the value of a name be circular below the name. Then without the name among the open keys a
run may nest deeper, and returns or is circular where it was with it. -/
lemma expandAt_followsTo {bound depth₀ : ℕ}
    (hnew : IsCircular (c.expandAt (.ofFunction value) bound [name] depth₀ new))
    {path more : List Text} (hmore : ∀ key, key ∈ more ↔ key = name ∨ key ∈ path)
    (fuel depth depth' : ℕ) (text : Text) :
    FollowsTo (c.expandAt (.ofFunction value) fuel more depth' text)
      (c.expandAt (.ofFunction value) (fuel + bound) path depth text) := by
  induction fuel generalizing path more depth depth' text with
  | zero => exact ⟨nofun, nofun⟩
  | succ fuel ih =>
    have hfuel : fuel + 1 + bound = fuel + bound + 1 := by omega
    rw [hfuel, expandAt_succ (tooDeep_eq_none hmax depth),
      expandAt_succ (tooDeep_eq_none hmax depth')]
    have hnote : FollowsTo (Run.note (.enters depth' more text))
        (Run.note (.enters depth path text)) := ⟨fun _ h => h, nofun⟩
    refine hnote.bind fun _ => sweep_rel followsTo (fun key => ?_) _
    unfold fillAt
    by_cases hpath : key ∈ path
    · -- the key is open in both runs
      rw [if_pos hpath, if_pos ((hmore key).2 (.inr hpath))]
      exact followsTo.refl _
    rw [if_neg hpath]
    by_cases hname : key = name
    · -- only with the name open the run fails here; without it, it comes to the value again
      subst hname
      rw [if_pos ((hmore key).2 (.inl rfl))]
      exact ⟨nofun, fun _ => substitute_circular hmax hplain hvalue (Nat.le_add_left _ _) hnew⟩
    · have hnot : key ∉ more := fun hmem => ((hmore key).1 hmem).elim hname hpath
      rw [if_neg hnot]
      refine substitute_rel followsTo (ih (fun other => ?_) _ _) text key
      simp only [List.mem_cons, hmore]
      exact or_left_comm

/-- The value of a name and a placeholder with that name return the same, and are circular
together. -/
theorem resolveWithin_iff_enclose
    (hclosing : c.closing 0 (name ++ c.closer) = some (name, [])) :
    (∀ bound result, (c.resolveWithin (.ofFunction value) bound new).outcome = .done result ↔
      (c.resolveWithin (.ofFunction value) (bound + 1) (c.enclose name)).outcome = .done result) ∧
    ((∃ bound, IsCircular (c.resolveWithin (.ofFunction value) bound new)) ↔
      ∃ bound, IsCircular (c.resolveWithin (.ofFunction value) bound (c.enclose name))) := by
  have hbelow := outcome_resolveWithin_enclose hplain hvalue hclosing
  have hagree (bound : ℕ) : Agree (c.expandAt (.ofFunction value) bound [name] 1 new)
      (c.resolveWithin (.ofFunction value) bound new) := by
    rw [resolveWithin_eq]
    exact expandAt_agree_of_subset hmax _ (List.nil_subset [name]) bound 0 1 new
  -- circular with the name open, circular without it
  have hcircular {bound : ℕ}
      (hopen : IsCircular (c.expandAt (.ofFunction value) bound [name] 1 new)) :
      IsCircular (c.resolveWithin (.ofFunction value) (bound + bound) new) := by
    have hfollows := expandAt_followsTo hmax hplain hvalue hopen
      (show ∀ key, key ∈ [name] ↔ key = name ∨ key ∈ [] by simp) bound 0 1 new
    rw [resolveWithin_eq]
    exact hfollows.2 hopen
  refine ⟨fun bound result => ?_, ?_, ?_⟩
  · rw [hbelow]
    constructor
    · intro hdone
      obtain heq | hopen := hagree bound
      · rw [heq, hdone]
      · obtain ⟨key, hkey⟩ := hcircular hopen
        have hends := ends_of_outcome bound hdone nofun
        cases hends.unique (ends_of_outcome (bound + bound) hkey nofun)
    · intro hdone
      rw [resolveWithin_eq]
      exact expandAt_returnsAs (List.nil_subset [name]) (Nat.zero_le 1) bound new result hdone
  · rintro ⟨bound, hnew⟩
    obtain ⟨key, hkey⟩ := (hagree bound).isCircular hnew
    exact ⟨bound + 1, key, by rw [hbelow, hkey]⟩
  · rintro ⟨bound, key, hkey⟩
    cases bound with
    | zero => cases hkey
    | succ bound =>
      rw [hbelow] at hkey
      exact ⟨bound + bound, hcircular ⟨key, hkey⟩⟩

end Reentry

end Config

namespace PropertyLookup

variable {fields : ConfigFields} {properties : PropertyLookup} {chain : Chain} {env : Environment}
  {name value : Text}

lemma maxDepth_lenient (hfields : ofFields fields = .ok properties)
    (hlimit : fields.maxDepth = none) : properties.lenient.maxDepth = none := by
  obtain ⟨-, -, -, -, -, -, limit, hread, hmax⟩ := Config.reads_of_ofFields (of_ofFields hfields).1
  have hnone : (defaults.override fields).maxDepth = none := by
    rw [ConfigFields.override, hlimit]
    rfl
  rw [hnone] at hread
  cases hread
  exact hmax

lemma getWithin_eq (hvalue : chain.property? env name = some value) (bound : ℕ) :
    properties.getWithin chain env bound name =
      some <$> properties.lenient.resolveWithin (chain.lookup env) bound value := by
  rw [getWithin, hvalue]
  rfl

/-- **A property is read by its name or through a placeholder.** Let a source hold a value for a
name without opener, and let the name between the marks be one placeholder with that key. Then
reading the property and resolving the placeholder return the same, where the placeholder takes one
more level of nesting, and the one fails for a circular key if the other does. -/
theorem getWithin_iff_enclose (hfields : ofFields fields = .ok properties)
    (hlimit : fields.maxDepth = none)
    (hheld : ∃ source ∈ chain.sources, source.contains env name = true)
    (hplain : properties.lenient.opens name = false)
    (hcomplete : ∃ p, properties.lenient.placeholders (properties.lenient.enclose name) = [p] ∧
      p.key = name) :
    (∀ bound result, (properties.getWithin chain env bound name).outcome = .done (some result) ↔
      (properties.resolveWithin chain env (bound + 1)
        (properties.lenient.enclose name)).outcome = .done result) ∧
    ((∃ bound key,
        (properties.getWithin chain env bound name).outcome = .failed (.circular key)) ↔
      ∃ bound key, (properties.resolveWithin chain env bound
        (properties.lenient.enclose name)).outcome = .failed (.circular key)) := by
  obtain ⟨value, hvalue⟩ : ∃ value, chain.property? env name = some value := by
    obtain ⟨source, hmem, hcontains⟩ := hheld
    rw [← Option.isSome_iff_exists, Chain.property?, List.isSome_findSome?, List.any_eq_true]
    exact ⟨source, hmem, hcontains⟩
  have hmax := maxDepth_lenient hfields hlimit
  have hclosing := Config.closing_of_placeholders_enclose hcomplete
  obtain ⟨hreturn, hcircular⟩ :=
    Config.resolveWithin_iff_enclose hmax hplain hvalue hclosing
  simp only [getWithin_eq hvalue, Run.outcome_map_failed]
  refine ⟨fun bound result => ?_, hcircular⟩
  rw [Run.outcome_map_done]
  refine Iff.trans ?_ (hreturn bound result)
  simp only [Option.some.injEq, exists_eq_right]
  rfl

/-- The lookup with the marks by default. -/
def standard : PropertyLookup := ⟨Config.braces, { Config.braces with lenient := false }⟩

/-- In one source the value of `a` is `${b}`, and that of `b` is `x${a}`. -/
def mutualChain : Chain := .ofList [{
  name := ['s']
  origin := .table ⟨[(.text ['a'], .text (Config.braces.enclose ['b'])),
    (.text ['b'], .text (['x'] ++ Config.braces.enclose ['a']))]⟩
  name_ne := by simp }]

/-- The property `a` is circular, for the key `b`, and so is `${a}`. -/
theorem mutualChain_circular :
    ofFields .none = .ok standard ∧ ConfigFields.none.maxDepth = none ∧
    (∃ source ∈ mutualChain.sources, source.contains .empty ['a'] = true) ∧
    standard.lenient.opens ['a'] = false ∧
    (∃ p, standard.lenient.placeholders (standard.lenient.enclose ['a']) = [p] ∧ p.key = ['a']) ∧
    (standard.getWithin mutualChain .empty 3 ['a']).outcome = .failed (.circular ['b']) ∧
    ∃ bound key, (standard.resolveWithin mutualChain .empty bound
      (standard.lenient.enclose ['a'])).outcome = .failed (.circular key) := by
  have hfields : ofFields .none = .ok standard := by rfl
  have hheld : ∃ source ∈ mutualChain.sources, source.contains .empty ['a'] = true := by
    decide
  have hplain : standard.lenient.opens ['a'] = false := by decide
  have hcomplete : ∃ p, standard.lenient.placeholders (standard.lenient.enclose ['a']) = [p] ∧
      p.key = ['a'] := ⟨standard.lenient.placeholderAt 0 ['a'], by decide +kernel, rfl⟩
  have hget : (standard.getWithin mutualChain .empty 3 ['a']).outcome
      = .failed (.circular ['b']) := by decide +kernel
  exact ⟨hfields, rfl, hheld, hplain, hcomplete, hget,
    (getWithin_iff_enclose hfields rfl hheld hplain hcomplete).2.1 ⟨3, ['b'], hget⟩⟩

end PropertyLookup
end ConfigText
