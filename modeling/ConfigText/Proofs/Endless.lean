import ConfigText.Lookup
import ConfigText.Proofs.Plain
import ConfigText.Proofs.Reach
import Mathlib

/-!
Runs without end.

No key is opened below itself, so a run without end opens ever longer keys. There are such runs: a
default is cut out of an expanded key and read again, and what the values have put into it may make
up openers and closers that stand in none of the texts. That needs all characters of all marks in
the values.
-/

namespace ConfigText

instance finiteChar : Finite Char :=
  .of_injective (fun ch => (⟨ch.toNat, ch.val.toNat_lt⟩ : Fin (2 ^ 32))) fun _ _ h =>
    Char.toNat_inj.1 (Fin.mk.inj h)

lemma Table.mem_of_find? {κ ν : Type} [BEq κ] {table : Table κ ν} {key : κ} {found : ν}
    (h : table.find? key = some found) : found ∈ table.entries.map Prod.snd := by
  obtain ⟨entries⟩ := table
  induction entries with
  | nil => cases h
  | cons entry more ih =>
    obtain ⟨k, v⟩ := entry
    simp only [find?, List.lookup_cons] at h ih
    cases hk : key == k with
    | true =>
      obtain rfl : v = found := by simpa [hk] using h
      exact List.mem_cons_self
    | false => exact List.mem_cons_of_mem _ (ih (by simpa [hk] using h))

/-- A table has finitely many texts, however its values are turned into texts. -/
lemma Properties.finite_texts (props : Properties) (view : Value → Option Text) :
    {new | ∃ name, (props.find? (.text name)).bind view = some new}.Finite := by
  refine (List.finite_toSet ((props.entries.map Prod.snd).filterMap view)).subset ?_
  rintro new ⟨name, h⟩
  obtain ⟨found, hf, hp⟩ := Option.bind_eq_some_iff.1 h
  exact List.mem_filterMap.2 ⟨found, Table.mem_of_find? hf, hp⟩

namespace Config

variable {c : Config} {value : Text → Option Text} {text : Text}

lemma expandAt_ne_tooDeep (hmax : c.maxDepth = none) {fuel depth limit : ℕ} {path : List Text}
    {inside : Text} :
    (c.expandAt (.ofFunction value) fuel path depth text).outcome
      ≠ .failed (.tooDeep limit inside) := by
  induction fuel generalizing path depth text with
  | zero => exact nofun
  | succ fuel ih =>
    intro h
    obtain ⟨_, hd, -⟩ | ⟨key, -, ⟨-, h⟩ | ⟨part, -, h⟩ | ⟨name, -, -, -, h⟩⟩ :=
      exists_of_expandAt_failed h
    · rw [tooDeep_eq_none hmax] at hd
      cases hd
    · cases h
    · exact ih h
    · cases h

/-- A text ends exactly if there is a bound on the length of the keys that it opens. -/
lemma exists_ends_iff_length_le :
    (∃ outcome, c.Ends (.ofFunction value) text outcome) ↔
      ∃ bound, ∀ key, c.Opens (.ofFunction value) text key → key.length ≤ bound := by
  have hends : (∃ outcome, c.Ends (.ofFunction value) text outcome) ↔
      ∃ run, c.Resolves (.ofFunction value) text run :=
    ⟨fun ⟨_, run, h, _⟩ => ⟨run, h⟩, fun ⟨run, h⟩ => ⟨_, run, h, rfl⟩⟩
  rw [hends, exists_resolves_iff_finite]
  constructor
  · intro hfin
    obtain ⟨bound, hb⟩ := (hfin.image List.length).bddAbove
    exact ⟨bound, fun key hk => hb ⟨key, hk, rfl⟩⟩
  · rintro ⟨bound, hb⟩
    exact (List.finite_length_le Char bound).subset hb

/-- **When resolving ends.** A text ends exactly if there is a bound on the length of the keys that
it opens. Where nesting has no limit it ends with a text, with a circular key or with a key that
has no value, and it does end if some character of the marks stands in none of the values. -/
theorem ends_iff_keys_bounded (c : Config) (props : Properties) (text : Text) :
    ((∃ outcome, c.Ends (.ofProperties props) text outcome) ↔
      ∃ bound, ∀ key, c.Opens (.ofProperties props) text key → key.length ≤ bound) ∧
    (c.maxDepth = none →
      (∀ outcome, c.Ends (.ofProperties props) text outcome →
        (∃ result, outcome = .done result) ∨ (∃ key, outcome = .failed (.circular key)) ∨
          ∃ key inside, outcome = .failed (.unresolvable key inside)) ∧
      ∀ ch ∈ c.opener ++ c.closer ++ c.separator.getD [],
        (∀ name new, props.get? name = some new → ch ∉ new) →
        ∃ outcome, c.Ends (.ofProperties props) text outcome) := by
  refine ⟨exists_ends_iff_length_le, fun hmax => ⟨?_, ?_⟩⟩
  · rintro _ ⟨run, ⟨hne, bound, rfl⟩, rfl⟩
    rw [resolveWithin_eq] at hne ⊢
    cases ho : (c.expandAt (.ofProperties props) bound [] 0 text).outcome with
    | done result => exact .inl ⟨result, rfl⟩
    | failed failure =>
      cases failure with
      | circular key => exact .inr (.inl ⟨key, rfl⟩)
      | unresolvable key inside => exact .inr (.inr ⟨key, inside, rfl⟩)
      | tooDeep limit inside => exact absurd ho (expandAt_ne_tooDeep hmax)
    | exhausted => exact absurd ho hne
  · intro ch hch hmissing
    obtain ⟨run, hrun⟩ : ∃ run, c.Resolves (.ofProperties props) text run := by
      rw [List.mem_append, List.mem_append] at hch
      rcases hch with hch | hch
      · refine ⟨_, resolves_of_ne (text.count ch + 1) ?_⟩
        rw [resolveWithin_eq]
        exact expandAt_ne_exhausted hmissing hch (Nat.lt_succ_self _)
      · obtain ⟨mark, hsep, hch⟩ : ∃ mark, c.separator = some mark ∧ ch ∈ mark := by
          cases hs : c.separator with
          | none => simp [hs] at hch
          | some mark => exact ⟨mark, rfl, by simpa [hs] using hch⟩
        exact (pool_reaches c props.get? text).exists_resolves
          (finite_reachedKeys hmissing hsep hch hmax (props.finite_texts Value.present) text) .refl
    exact ⟨_, run, hrun, rfl⟩

/-! ### A text that never ends -/

section Steps

variable {name new front rest result : Text} {fuel depth : ℕ} {path : List Text}
  {fill : Text → Run (Option Text)} {more : List Piece}

lemma sweep_chars_done (h : (c.sweep fill more).outcome = .done rest) :
    (c.sweep fill (front.map .char ++ more)).outcome = .done (front ++ rest) := by
  rw [sweep_chars]
  exact Run.outcome_map_done.2 ⟨rest, h, rfl⟩

lemma sweep_hole_done (hf : (fill name).outcome = .done (some new))
    (h : (c.sweep fill more).outcome = .done rest) :
    (c.sweep fill (.hole name :: more)).outcome = .done (new ++ rest) :=
  Run.outcome_bind_done.2 ⟨some new, hf, Run.outcome_map_done.2 ⟨rest, h, rfl⟩⟩

lemma fillAt_plain_done (hmax : c.maxDepth = none) (plain : c.Plain name) (hmem : name ∉ path)
    (hv : value name = some new)
    (h : (c.expandAt (.ofFunction value) (fuel + 1) (name :: path) depth new).outcome
      = .done result) :
    (c.fillAt (.ofFunction value) (c.expandAt (.ofFunction value) (fuel + 1) (name :: path) depth)
      path text name).outcome = .done (some result) := by
  rw [fillAt, if_neg hmem]
  refine substitute_done.2 ⟨name, expandAt_plain hmax plain, .inl ⟨new, result, ?_, h, rfl⟩⟩
  rw [valueAt_plain plain, hv]

end Steps

/-- The value of `d` makes up openers where the other two values have left gaps. -/
def regrowing : Properties :=
  ⟨[(.text ['p'], .text (braces.enclose ['d'] ++ (['{', 'm', ':'] ++
      (braces.enclose ['d'] ++ ['{', 'p', '}'])))),
    (.text ['s'], .text (['x'] ++ (braces.enclose ['d'] ++ ['{', 's', '}', '}']))),
    (.text ['d'], .text ['$'])]⟩

/-- The key that is opened at level `k`. -/
def growingKey (k : ℕ) : Text :=
  ['m', ':'] ++ (braces.enclose ['p'] ++ (List.replicate k 'x' ++ braces.enclose ['s']))

lemma regrowing_get? :
    regrowing.get? ['p'] = some (braces.enclose ['d'] ++ (['{', 'm', ':'] ++
      (braces.enclose ['d'] ++ ['{', 'p', '}']))) ∧
    regrowing.get? ['s'] = some (['x'] ++ (braces.enclose ['d'] ++ ['{', 's', '}', '}'])) ∧
    regrowing.get? ['d'] = some ['$'] ∧ ∀ rest, regrowing.get? ('m' :: rest) = none := by
  refine ⟨?_, ?_, ?_, fun rest => ?_⟩ <;>
    simp [regrowing, Properties.get?, Table.find?, List.lookup_cons]

lemma closing_braces_enclose {name : Text} (plain : braces.Plain name) (depth : ℕ) (rest : Text) :
    braces.closing depth (braces.enclose name ++ rest) =
      (braces.closing depth rest).map fun (key, after) => (braces.enclose name ++ key, after) := by
  have htext (rest : Text) : braces.enclose name ++ rest =
      '$' :: (braces.bracket ++ (name ++ (braces.closer ++ rest))) := by
    rw [enclose, List.append_assoc, List.append_assoc]
    rfl
  rw [htext, closing_char _ _ (not_prefix_of_not_mem (by decide) (by decide))
    (not_prefix_of_not_mem (by decide) (by decide)),
    closing_bracket _ _ (not_prefix_of_not_mem (by decide) (by decide)),
    closing_plain_append plain, closing_closer_succ]
  cases braces.closing depth rest with
  | none => rfl
  | some part => simp [htext]

lemma closing_growingKey (k : ℕ) :
    braces.closing 0 (growingKey k ++ braces.closer) = some (growingKey k, []) := by
  have hx : braces.Plain (List.replicate k 'x') := fun ch hch => by
    rw [List.eq_of_mem_replicate hch]
    decide
  have hs := closing_braces_enclose (show braces.Plain ['s'] by decide) 0 braces.closer
  rw [show braces.closing 0 braces.closer = some ([], []) from braces.closing_closer_zero []] at hs
  simp only [growingKey, List.append_assoc]
  rw [closing_append_of_forall_not_mem (by simp [braces]) (by simp [braces]),
    closing_braces_enclose (by decide), closing_plain_append hx, hs]
  simp

lemma pieces_growingKey (k : ℕ) :
    braces.pieces (growingKey k) = ['m', ':'].map .char ++ .hole ['p'] ::
      ((List.replicate k 'x').map .char ++ [.hole ['s']]) := by
  rw [growingKey, pieces_append_of_head_not_mem (by decide),
    pieces_enclose_plain_append (by decide), pieces_append_of_head_not_mem (by simp [braces]),
    pieces_enclose_plain (by decide)]

section Levels

variable {fuel depth : ℕ} {path : List Text}

lemma fillAt_d (hd : ['d'] ∉ path) :
    (braces.fillAt (.ofFunction regrowing.get?)
      (braces.expandAt (.ofFunction regrowing.get?) (fuel + 1) (['d'] :: path) depth) path text
        ['d']).outcome = .done (some ['$']) := by
  refine fillAt_plain_done rfl (by decide) hd regrowing_get?.2.2.1 (expandAt_chars rfl ?_)
  rw [pieces, if_neg (by decide), pieces]
  rfl

lemma fillAt_p (hp : ['p'] ∉ path) (hd : ['d'] ∉ path) :
    (braces.fillAt (.ofFunction regrowing.get?)
      (braces.expandAt (.ofFunction regrowing.get?) (fuel + 2) (['p'] :: path) depth) path text
        ['p']).outcome =
      .done (some (['$'] ++ (['{', 'm', ':'] ++ (['$'] ++ ['{', 'p', '}'])))) := by
  refine fillAt_plain_done rfl (by decide) hp regrowing_get?.1 ?_
  have hd' : ['d'] ∉ ['p'] :: path := by simp [hd]
  rw [expandAt_succ rfl, Run.outcome_note_bind, pieces_enclose_plain_append (by decide),
    @pieces_append_of_head_not_mem braces _ (by decide), pieces_enclose_plain_append (by decide),
    @pieces_of_head_not_mem braces _ (by decide)]
  refine sweep_hole_done (fillAt_d hd') (sweep_chars_done (sweep_hole_done (fillAt_d hd') ?_))
  rw [sweep_only_chars]
  rfl

lemma fillAt_s (hs : ['s'] ∉ path) (hd : ['d'] ∉ path) :
    (braces.fillAt (.ofFunction regrowing.get?)
      (braces.expandAt (.ofFunction regrowing.get?) (fuel + 2) (['s'] :: path) depth) path text
        ['s']).outcome = .done (some (['x'] ++ (['$'] ++ ['{', 's', '}', '}']))) := by
  refine fillAt_plain_done rfl (by decide) hs regrowing_get?.2.1 ?_
  have hd' : ['d'] ∉ ['s'] :: path := by simp [hd]
  rw [expandAt_succ rfl, Run.outcome_note_bind, @pieces_append_of_head_not_mem braces _ (by decide),
    pieces_enclose_plain_append (by decide), @pieces_of_head_not_mem braces _ (by decide)]
  refine sweep_chars_done (sweep_hole_done (fillAt_d hd') ?_)
  rw [sweep_only_chars]
  rfl

/-- Behind the first separator a key expands to the placeholder of the next one. -/
lemma expandAt_growingKey (fuel depth k : ℕ) (hp : ['p'] ∉ path) (hs : ['s'] ∉ path)
    (hd : ['d'] ∉ path) :
    (braces.expandAt (.ofFunction regrowing.get?) (fuel + 3) path depth (growingKey k)).outcome =
      .done ('m' :: ':' :: braces.enclose (growingKey (k + 1))) := by
  have hnext : 'm' :: ':' :: braces.enclose (growingKey (k + 1)) =
      ['m', ':'] ++ ((['$'] ++ (['{', 'm', ':'] ++ (['$'] ++ ['{', 'p', '}']))) ++
        (List.replicate k 'x' ++ ((['x'] ++ (['$'] ++ ['{', 's', '}', '}'])) ++ []))) := by
    simp [growingKey, enclose, braces, List.replicate_succ']
  rw [expandAt_succ rfl, Run.outcome_note_bind, pieces_growingKey, hnext]
  exact sweep_chars_done (sweep_hole_done (fillAt_p hp hd)
    (sweep_chars_done (sweep_hole_done (fillAt_s hs hd) rfl)))

lemma valueAt_growingKey (rest : Text) :
    braces.valueAt regrowing.get? ('m' :: ':' :: rest) = some rest := by
  simp [valueAt, split, splitDefault, braces, Text.cut, regrowing_get?.2.2.2]

end Levels

lemma growingKey_injective : Function.Injective growingKey := by
  intro j k h
  have := congrArg List.length h
  simpa [growingKey] using this

lemma growingKey_ne (k : ℕ) (ch : Char) : [ch] ≠ growingKey k := by
  intro h
  have := congrArg List.length h
  simp [growingKey] at this

/-- Below the keys of all levels above it a key is opened that is longer than all of them. -/
lemma expandAt_enclose_growingKey (fuel k depth : ℕ) {path : List Text}
    (hpath : ∀ key ∈ path, ∃ j < k, key = growingKey j) :
    (braces.expandAt (.ofFunction regrowing.get?) fuel path depth
      (braces.enclose (growingKey k))).outcome = .exhausted := by
  induction fuel generalizing k path depth with
  | zero => rfl
  | succ fuel ih =>
    have hmem : growingKey k ∉ path := by
      intro hm
      obtain ⟨j, hj, he⟩ := hpath _ hm
      exact hj.ne' (growingKey_injective he)
    have hpath' : ∀ key ∈ growingKey k :: path, ∃ j < k + 1, key = growingKey j := by
      intro key hkey
      rcases List.mem_cons.1 hkey with rfl | hkey
      · exact ⟨k, by omega, rfl⟩
      · obtain ⟨j, hj, rfl⟩ := hpath key hkey
        exact ⟨j, by omega, rfl⟩
    have hone (ch : Char) : [ch] ∉ growingKey k :: path := by
      intro hm
      obtain ⟨j, -, he⟩ := hpath' _ hm
      exact growingKey_ne j ch he
    rw [expandAt_succ rfl, Run.outcome_note_bind, pieces_enclose _ (closing_growingKey k), sweep,
      Run.outcome_bind_exhausted, fillAt, if_neg hmem, substitute_exhausted]
    left
    by_cases hex : (braces.expandAt (.ofFunction regrowing.get?) fuel (growingKey k :: path)
        (depth + 1) (growingKey k)).outcome = .exhausted
    · exact ⟨_, .key, hex⟩
    · -- the key expands, and its default is the text that the next key stands in
      have heq := (expandAt_continues (show fuel ≤ fuel + 3 by omega) (growingKey k :: path)
        (depth + 1) (growingKey k)).eq hex
      have hname := expandAt_growingKey fuel (depth + 1) k (hone 'p') (hone 's') (hone 'd')
      exact ⟨_, .found (heq ▸ hname) (valueAt_growingKey _), ih (k + 1) (depth + 1) hpath'⟩

/-- Three values with which a text never ends. -/
theorem regrowing_never_ends :
    braces.separator = some [':'] ∧ braces.maxDepth = none ∧
    ¬∃ outcome, braces.Ends (.ofProperties regrowing)
      ['$', '{', 'm', ':', '$', '{', 'p', '}', '$', '{', 's', '}', '}'] outcome := by
  refine ⟨rfl, rfl, ?_⟩
  rintro ⟨_, _, ⟨hne, bound, rfl⟩, -⟩
  rw [resolveWithin_eq] at hne
  exact hne (expandAt_enclose_growingKey bound 0 0 (by simp))

end Config
end ConfigText
