import ConfigText.Proofs.Leftovers
import Mathlib

/-!
What falling back to a default gives.

The default is expanded with the key it stands in. What that gives is cut out of the expanded key
and resolved once more, as a value is. So a placeholder whose name has no value ends as its resolved
default does when that is resolved again, and that may be another text.
-/

namespace ConfigText

/-- The first occurrence of a token is where it is, whatever stands behind it. -/
lemma Text.cut_append {token before after : Text}
    (h : cut token (before ++ token ++ after) = some (before, after)) (other : Text) :
    cut token (before ++ token ++ other) = some (before, other) := by
  induction before with
  | nil =>
    rw [List.nil_append]
    cases heq : token ++ other with
    | nil =>
      obtain ⟨rfl, rfl⟩ := List.append_eq_nil_iff.1 heq
      rfl
    | cons ch rest =>
      have hp : token <+: ch :: rest := ⟨other, heq⟩
      rw [cut, if_pos hp, ← heq, List.drop_left]
  | cons ch before ih =>
    rw [List.cons_append, List.cons_append, cut] at h ⊢
    split at h
    · simp at h
    next hn =>
    obtain ⟨⟨b, a⟩, hcut, he⟩ := Option.map_eq_some_iff.1 h
    obtain ⟨rfl, rfl⟩ : b = before ∧ a = after := by simpa using he
    have hn' : ¬token <+: ch :: (b ++ token ++ other) := by
      intro hp
      -- the token would stand in the part that both texts have
      have hfront : ch :: (b ++ token) <+: ch :: (b ++ token ++ other) := ⟨other, by simp⟩
      have hp' : token <+: ch :: (b ++ token) :=
        List.prefix_of_prefix_length_le hp hfront (by simp; omega)
      exact hn (hp'.trans ⟨a, by simp⟩)
    rw [if_neg hn', ih hcut]
    rfl

namespace Config

variable {c : Config} {value : Text → Option Text} {text key name : Text}

lemma split_eq_some_iff {default : Text} :
    c.split key = (name, some default) ↔
      ∃ mark, c.separator = some mark ∧ mark ≠ [] ∧ Text.cut mark key = some (name, default) := by
  unfold split splitDefault
  split
  · next hsep => simp [hsep]
  · next hsep => simp [hsep]
  · next mark hne hsep =>
    have hmark : mark ≠ [] := hne
    split <;> simp_all

/-- A key that is cut in front of a text is cut there whatever the text is. -/
lemma split_append {mark default : Text} (hsep : c.separator = some mark)
    (h : c.split (name ++ mark ++ default) = (name, some default)) (other : Text) :
    c.split (name ++ mark ++ other) = (name, some other) := by
  obtain ⟨mark', hsep', hmark, hcut⟩ := split_eq_some_iff.1 h
  obtain rfl : mark = mark' := Option.some.inj (hsep.symm.trans hsep')
  exact split_eq_some_iff.2 ⟨mark, hsep, hmark, Text.cut_append hcut other⟩

/-! ### Resolving without the check -/

/-- What the check does not fail ends in the same way without it. -/
lemma ends_iff_endsBlind (hmax : c.maxDepth = none) {outcome : Outcome Text}
    (hcircular : ∀ key, outcome ≠ .failed (.circular key)) :
    c.Ends (.ofFunction value) text outcome ↔ c.EndsBlind (.ofFunction value) text outcome := by
  constructor
  · rintro ⟨_, ⟨hne, bound, rfl⟩, rfl⟩
    rw [resolveWithin_eq] at hne hcircular ⊢
    have hagree := expandAt_agree c (.ofFunction value) bound [] 0 text
    refine ⟨hne, bound, (hagree.resolve_right ?_).symm⟩
    rintro ⟨key, hkey⟩
    exact hcircular key hkey
  · rintro ⟨hne, bound, ho⟩
    have hends := expandBlind_endsAs hmax bound [] 0 text (by simp) (ho ▸ hne)
    refine ends_of_outcome bound ?_ hne
    rw [resolveWithin_eq, hends, ho]

section Unlimited

variable (hmax : c.maxDepth = none)
include hmax

/-- A text that ends does so wherever it lies, if only the run may nest deep enough. -/
lemma EndsBlind.eventually {outcome : Outcome Text}
    (h : c.EndsBlind (.ofFunction value) text outcome) : ∃ n, ∀ fuel ≥ n, ∀ depth,
      (c.expandBlind (.ofFunction value) fuel depth text).outcome = outcome := by
  obtain ⟨hne, n, ho⟩ := h
  refine ⟨n, fun fuel hle depth => ?_⟩
  have hdepth := expandBlind_endsAs_depth hmax n 0 depth text (ho ▸ hne)
  rw [← (expandBlind_continues hle depth text).eq (hdepth ▸ ho ▸ hne), hdepth, ho]

lemma endsBlind_of_outcome (fuel depth : ℕ) {outcome : Outcome Text} (hne : outcome ≠ .exhausted)
    (h : (c.expandBlind (.ofFunction value) fuel depth text).outcome = outcome) :
    c.EndsBlind (.ofFunction value) text outcome := by
  refine ⟨hne, fuel, ?_⟩
  rw [expandBlind_endsAs_depth hmax fuel depth 0 text (h ▸ hne), h]

/-- Characters in front of a text in which no opener can start are kept. -/
lemma expandBlind_append_done {fuel depth : ℕ} {front result : Text}
    (hfront : ∀ ch ∈ front, ch ∉ c.opener)
    (h : (c.expandBlind (.ofFunction value) fuel depth text).outcome = .done result) :
    (c.expandBlind (.ofFunction value) fuel depth (front ++ text)).outcome =
      .done (front ++ result) := by
  cases fuel with
  | zero => cases h
  | succ fuel =>
    rw [expandBlind_succ hmax, Run.outcome_note_bind] at h ⊢
    have hhead : c.opener.head c.opener_ne ∉ front := fun hm => hfront _ hm (List.head_mem _)
    rw [pieces_append_of_head_not_mem hhead, sweep_chars]
    refine Run.outcome_map_done.2 ⟨result, ?_, rfl⟩
    exact sweep_rel Run.returnsAs (fun key _ => (substitute_alike _ text (front ++ text) key).done)
      (c.pieces text) result h

lemma outcome_expandBlind_enclose {fuel depth : ℕ} {new : Text}
    (hclosing : c.closing 0 (key ++ c.closer) = some (key, []))
    (hn : (c.expandBlind (.ofFunction value) fuel (depth + 1) key).outcome = .done name)
    (hv : c.valueAt value name = some new) :
    (c.expandBlind (.ofFunction value) (fuel + 1) depth (c.enclose key)).outcome =
      (c.expandBlind (.ofFunction value) fuel (depth + 1) new).outcome := by
  rw [expandBlind_succ hmax, Run.outcome_note_bind, c.pieces_enclose hclosing]
  exact outcome_sweep_found rfl hn hv

end Unlimited

/-! ### A name without a value -/

/-- A placeholder by itself whose name has no value, where its default resolves to `result` and the
name has no value with that behind it. -/
structure FallsBack (c : Config) (value : Text → Option Text) (name mark default result : Text) :
    Prop where
  unlimited : c.maxDepth = none
  separator : c.separator = some mark
  mark_ne : mark ≠ []
  mark_clean : ∀ ch ∈ mark, ch ∉ c.opener
  name_clean : ∀ ch ∈ name, ch ∉ c.opener
  name_uncut : ¬mark <:+: name
  complete : ∃ p, c.placeholders (c.enclose (name ++ mark ++ default)) = [p] ∧
    p.key = name ++ mark ++ default
  ends : c.Ends (.ofFunction value) default (.done result)
  name_missing : value name = none
  key_missing : value (name ++ mark ++ result) = none

namespace FallsBack

variable {mark default result : Text} (h : c.FallsBack value name mark default result)
include h

lemma closing : c.closing 0 (name ++ mark ++ default ++ c.closer) =
    some (name ++ mark ++ default, []) := closing_of_placeholders_enclose h.complete

/-- The key expands to the name with the resolved default behind it. -/
lemma expands : ∃ n, ∀ fuel ≥ n, ∀ depth,
    (c.expandBlind (.ofFunction value) fuel depth (name ++ mark ++ default)).outcome =
      .done (name ++ mark ++ result) := by
  have hfront : ∀ ch ∈ name ++ mark, ch ∉ c.opener := fun ch hch =>
    (List.mem_append.1 hch).elim (h.name_clean ch) (h.mark_clean ch)
  have hends := (ends_iff_endsBlind h.unlimited (by simp)).1 h.ends
  obtain ⟨n, hn⟩ := hends.eventually h.unlimited
  exact ⟨n, fun fuel hle depth => expandBlind_append_done h.unlimited hfront (hn fuel hle depth)⟩

variable (hsplit : c.split (name ++ mark ++ default) = (name, some default))
include hsplit

lemma valueAt_eq : c.valueAt value (name ++ mark ++ result) = some result := by
  rw [valueAt, h.key_missing, split_append h.separator hsplit]
  simp [h.name_missing]

lemma endsBlind_enclose_iff {outcome : Outcome Text} :
    c.EndsBlind (.ofFunction value) (c.enclose (name ++ mark ++ default)) outcome ↔
      c.EndsBlind (.ofFunction value) result outcome := by
  obtain ⟨n, hn⟩ := h.expands
  have hstep (fuel : ℕ) (hle : n ≤ fuel) :
      (c.expandBlind (.ofFunction value) (fuel + 1) 0
        (c.enclose (name ++ mark ++ default))).outcome =
      (c.expandBlind (.ofFunction value) fuel 1 result).outcome :=
    outcome_expandBlind_enclose h.unlimited h.closing (hn fuel hle 1) (h.valueAt_eq hsplit)
  constructor
  · intro hends
    obtain ⟨m, hm⟩ := hends.eventually h.unlimited
    refine endsBlind_of_outcome h.unlimited (max n m) 1 hends.1 ?_
    rw [← hstep (max n m) (le_max_left n m), hm _ (by omega)]
  · intro hends
    obtain ⟨m, hm⟩ := hends.eventually h.unlimited
    refine endsBlind_of_outcome h.unlimited (max n m + 1) 0 hends.1 ?_
    rw [hstep (max n m) (le_max_left n m), hm _ (le_max_right n m)]

lemma ends_enclose_iff {outcome : Outcome Text}
    (hcircular : ∀ key, outcome ≠ .failed (.circular key)) :
    c.Ends (.ofFunction value) (c.enclose (name ++ mark ++ default)) outcome ↔
      c.Ends (.ofFunction value) result outcome := by
  rw [ends_iff_endsBlind h.unlimited hcircular, ends_iff_endsBlind h.unlimited hcircular]
  exact h.endsBlind_enclose_iff hsplit

end FallsBack

/-- **A default is resolved twice.** The default is resolved with the key and what this gives is
resolved as a value: short of a circular key, the placeholder ends as that does. It returns what the
default resolves to if all placeholders in that have been left in place, which they have where the
default and the values are tidy. -/
theorem default_resolves_again {c : Config} {value : Text → Option Text}
    {name mark default result : Text} (h : c.FallsBack value name mark default result)
    (hsplit : c.split (name ++ mark ++ default) = (name, some default)) :
    (∀ outcome, (∀ key, outcome ≠ .failed (.circular key)) →
      (c.Ends (.ofFunction value) (c.enclose (name ++ mark ++ default)) outcome ↔
        c.Ends (.ofFunction value) result outcome)) ∧
    (∀ run, c.Resolves (.ofFunction value) default run →
      (∀ p ∈ c.placeholders result, .keeps p.key ∈ run.trace) →
      c.Ends (.ofFunction value) (c.enclose (name ++ mark ++ default)) (.done result)) ∧
    ((∀ ch ∈ c.opener, ch ∉ c.closer) → c.Tidy default →
      (∀ other new, value other = some new → c.Tidy new) →
      c.Ends (.ofFunction value) (c.enclose (name ++ mark ++ default)) (.done result)) := by
  have hself : c.Ends (.ofFunction value) result (.done result) →
      c.Ends (.ofFunction value) (c.enclose (name ++ mark ++ default)) (.done result) :=
    (h.ends_enclose_iff hsplit (by simp)).2
  refine ⟨fun outcome => h.ends_enclose_iff hsplit, fun run hrun hkept => ?_,
    fun hdisjoint hdefault hvalue => ?_⟩
  · exact hself (ends_self_of_forall_keeps hrun hkept)
  · refine hself (ends_self_of_tidy hdisjoint (fun ch hch => ?_) hvalue hdefault h.ends)
    rw [h.separator] at hch
    exact h.mark_clean ch (List.mem_of_getLast? hch)

/-- The default `${a}` refers to `u`, which has no value. -/
lemma dangling_fallsBack : braces.FallsBack danglingValue ['m'] [':'] (braces.enclose ['a'])
    (braces.enclose ['u'] ++ ['x']) where
  unlimited := rfl
  separator := rfl
  mark_ne := by simp
  mark_clean := by simp [braces]
  name_clean := by simp [braces]
  name_uncut := by decide
  complete := ⟨braces.placeholderAt 0 (['m'] ++ [':'] ++ braces.enclose ['a']),
    by decide +kernel, rfl⟩
  ends := ends_of_outcome 4 (by decide +kernel) nofun
  name_missing := rfl
  key_missing := by decide

/-- `${m:${a}}` resolves to `${u}x`, as `${a}` does. -/
theorem dangling_default_resolves :
    (braces.FallsBack danglingValue ['m'] [':'] (braces.enclose ['a'])
      (braces.enclose ['u'] ++ ['x'])) ∧
    braces.split (['m'] ++ [':'] ++ braces.enclose ['a']) = (['m'], some (braces.enclose ['a'])) ∧
    braces.Ends (.ofFunction danglingValue)
      (braces.enclose (['m'] ++ [':'] ++ braces.enclose ['a']))
      (.done (braces.enclose ['u'] ++ ['x'])) := by
  have hsplit : braces.split (['m'] ++ [':'] ++ braces.enclose ['a']) =
      (['m'], some (braces.enclose ['a'])) := by decide
  exact ⟨dangling_fallsBack, hsplit, (default_resolves_again dangling_fallsBack hsplit).2.2
    (by simp [braces]) (tidy_enclose_plain (by decide)) fun _ _ => tidy_danglingValue⟩

/-- The separator is made of one character twice. -/
def colons : Config := { braces with separator := some [':', ':'] }

/-- `${a}{b}` resolves to `${b}`, and as a default to what that resolves to. -/
lemma seam_fallsBack : braces.FallsBack seamValue ['m'] [':']
    (braces.enclose ['a'] ++ ['{', 'b', '}']) (braces.enclose ['b']) where
  unlimited := rfl
  separator := rfl
  mark_ne := by simp
  mark_clean := by simp [braces]
  name_clean := by simp [braces]
  name_uncut := by decide
  complete := ⟨braces.placeholderAt 0 (['m'] ++ [':'] ++ (braces.enclose ['a'] ++ ['{', 'b', '}'])),
    by decide +kernel, rfl⟩
  ends := ends_of_outcome 4 (by decide +kernel) nofun
  name_missing := by decide
  key_missing := by decide

lemma colons_fallsBack : colons.FallsBack (fun _ => none) [':'] [':', ':'] ['x'] ['x'] where
  unlimited := rfl
  separator := rfl
  mark_ne := by simp
  mark_clean := by simp [colons, braces]
  name_clean := by simp [colons, braces]
  name_uncut := by decide
  complete := ⟨colons.placeholderAt 0 ([':'] ++ [':', ':'] ++ ['x']), by decide +kernel, rfl⟩
  ends := ends_of_outcome 4 (by decide +kernel) nofun
  name_missing := rfl
  key_missing := rfl

/-- The default of `${m:${a}{b}}` resolves to `${b}` but the placeholder to what `b` does, and
where `::` comes before a default, `${:::x}` has the default `:x`. -/
theorem default_differs :
    (braces.FallsBack seamValue ['m'] [':'] (braces.enclose ['a'] ++ ['{', 'b', '}'])
        (braces.enclose ['b']) ∧
      ¬braces.Ends (.ofFunction seamValue)
        (braces.enclose (['m'] ++ [':'] ++ (braces.enclose ['a'] ++ ['{', 'b', '}'])))
        (.done (braces.enclose ['b']))) ∧
    (colons.FallsBack (fun _ => none) [':'] [':', ':'] ['x'] ['x'] ∧
      ¬colons.Ends (.ofFunction fun _ => none) (colons.enclose ([':'] ++ [':', ':'] ++ ['x']))
        (.done ['x'])) := by
  refine ⟨⟨seam_fallsBack, fun h => ?_⟩, colons_fallsBack, fun h => ?_⟩
  · have hx : braces.Ends (.ofFunction seamValue)
        (braces.enclose (['m'] ++ [':'] ++ (braces.enclose ['a'] ++ ['{', 'b', '}'])))
        (.done ['x']) := ends_of_outcome 5 (by decide +kernel) nofun
    cases h.unique hx
  · have hx : colons.Ends (.ofFunction fun _ => none)
        (colons.enclose ([':'] ++ [':', ':'] ++ ['x'])) (.done [':', 'x']) :=
      ends_of_outcome 5 (by decide +kernel) nofun
    cases h.unique hx

end Config
end ConfigText
