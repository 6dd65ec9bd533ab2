import ConfigText.Proofs.Defaults
import ConfigText.Proofs.Stopping
import Mathlib

/-!
What a listed default says about resolving.

A placeholder is listed with the default that its key has as it stands, while resolving cuts the
default out of what the key expands to. A separator outside of the placeholders in the key is still
there then, so the placeholder has a default in both cases. A separator inside of one of them may be
gone, and with it the default.
-/

namespace ConfigText.Config

variable {c : Config} {value : Text → Option Text} {text mark name result : Text}
  {fuel depth : ℕ} {path : List Text} {p : Placeholder}

/-! ### What stands outside of placeholders -/

/-- The mark stands in the text at a place that no placeholder reaches into. -/
def StandsOutside (c : Config) (mark text : Text) : Prop :=
  ∃ before after, text = before ++ mark ++ after ∧
    ∀ q ∈ c.placeholders text, q.stop ≤ before.length ∨ before.length + mark.length ≤ q.start

/-- In a text that begins with a literal, a mark lies behind the literal, begins in it, or lies in
it. -/
lemma append_eq_around_cases {literal rest before mark after : Text}
    (h : literal ++ rest = before ++ mark ++ after) :
    (∃ before', before = literal ++ before' ∧ rest = before' ++ mark ++ after) ∨
      (∃ inside mark', literal = before ++ inside ∧ mark = inside ++ mark' ∧
        rest = mark' ++ after) ∨
      ∃ behind, literal = before ++ mark ++ behind := by
  rw [List.append_assoc] at h
  obtain ⟨before', rfl, hbehind⟩ | ⟨inside, rfl, hbehind⟩ := List.append_eq_append_iff.1 h
  · exact .inl ⟨before', rfl, by rw [hbehind, List.append_assoc]⟩
  · obtain ⟨mark', rfl, hrest⟩ | ⟨behind, rfl, -⟩ := List.append_eq_append_iff.1 hbehind.symm
    · exact .inr (.inl ⟨inside, mark', rfl, rfl, hrest⟩)
    · exact .inr (.inr ⟨behind, (List.append_assoc ..).symm⟩)

/-- What stands outside of the placeholders among pieces stands in what replacing these gives, and
in front of it if it did so before. -/
lemma exists_of_sweep_outside {fill : Text → Run (Option Text)} {pieces : List Piece}
    {position : ℕ} {before after : Text} (h : pieces.flatMap c.write = before ++ mark ++ after)
    (hclear : ∀ q ∈ c.placeholdersAt position pieces,
      q.stop ≤ position + before.length ∨ position + before.length + mark.length ≤ q.start)
    (hdone : (c.sweep fill pieces).outcome = .done result) :
    ∃ front back, result = front ++ mark ++ back ∧ (before = [] → front = []) := by
  induction pieces generalizing position before mark after result with
  | nil =>
    obtain ⟨rfl, rfl, rfl⟩ : before = [] ∧ mark = [] ∧ after = [] := by simpa using h.symm
    exact ⟨[], result, rfl, fun _ => rfl⟩
  | cons piece more ih =>
    rw [List.flatMap_cons] at h
    -- characters and strays are kept, wherever the mark lies
    have hliteral {literal : Text}
        (hlit : literal ++ more.flatMap c.write = before ++ mark ++ after)
        (hmore : ∀ q ∈ c.placeholdersAt (position + literal.length) more,
          q.stop ≤ position + before.length ∨ position + before.length + mark.length ≤ q.start)
        (hrun : ((literal ++ ·) <$> c.sweep fill more).outcome = .done result) :
        ∃ front back, result = front ++ mark ++ back ∧ (before = [] → front = []) := by
      obtain ⟨rest, hrest, rfl⟩ := Run.outcome_map_done.1 hrun
      obtain ⟨before', rfl, hbehind⟩ | ⟨inside, mark', rfl, rfl, hbehind⟩ | ⟨behind, rfl⟩ :=
        append_eq_around_cases hlit
      · obtain ⟨front, back, rfl, hfront⟩ := ih hbehind (fun q hq => by
          have := hmore q hq
          simp only [List.length_append] at this
          omega) hrest
        refine ⟨literal ++ front, back, by simp, fun hnil => ?_⟩
        obtain ⟨rfl, rfl⟩ := List.append_eq_nil_iff.1 hnil
        exact hfront rfl
      · -- what is behind the literal begins with the rest of the mark
        have hbehind : more.flatMap c.write = [] ++ mark' ++ after := hbehind
        obtain ⟨front, back, rfl, hfront⟩ := ih hbehind (fun q hq => by
          have := hmore q hq
          simp only [List.length_append, List.length_nil] at this ⊢
          omega) hrest
        obtain rfl := hfront rfl
        exact ⟨before, back, by simp, id⟩
      · exact ⟨before, behind ++ rest, by simp, id⟩
    cases piece with
    | char ch => exact hliteral h hclear hdone
    | stray => exact hliteral h hclear hdone
    | hole key =>
      obtain ⟨found, -, hdone⟩ := Run.outcome_bind_done.1 hdone
      obtain ⟨rest, hrest, rfl⟩ := Run.outcome_map_done.1 hdone
      obtain ⟨hhole, hmore⟩ := List.forall_mem_cons.1 hclear
      obtain hle | hle := hhole
      · -- the mark lies behind the placeholder
        have hlen : (c.enclose key).length ≤ before.length := by
          simpa [placeholderAt] using hle
        obtain ⟨before', rfl⟩ : c.enclose key <+: before := by
          refine List.prefix_of_prefix_length_le ⟨more.flatMap c.write, h⟩ ?_ hlen
          exact ⟨mark ++ after, by simp⟩
        have hbehind : more.flatMap c.write = before' ++ mark ++ after := by
          simpa [write] using h
        obtain ⟨front, back, rfl, -⟩ := ih hbehind (fun q hq => by
          have := hmore q hq
          simp only [List.length_append] at this
          omega) hrest
        refine ⟨found.getD (c.enclose key) ++ front, back, by simp, fun hnil => ?_⟩
        simp [enclose, c.opener_ne] at hnil
      · -- only an empty mark lies in front of it
        have hstart : position + before.length + mark.length ≤ position := hle
        obtain rfl : mark = [] := List.eq_nil_of_length_eq_zero (by omega)
        exact ⟨[], found.getD (c.enclose key) ++ rest, rfl, fun _ => rfl⟩

lemma StandsOutside.infix_of_expandAt (h : c.StandsOutside mark text)
    (hdone : (c.expandAt (.ofFunction value) fuel path depth text).outcome = .done result) :
    mark <:+: result := by
  obtain ⟨before, after, htext, hclear⟩ := h
  cases fuel with
  | zero => cases hdone
  | succ fuel =>
    rcases c.expandAt_succ_cases (.ofFunction value) fuel path depth text with heq | ⟨_, -, heq⟩
    swap
    · rw [heq] at hdone
      cases hdone
    rw [heq, Run.outcome_note_bind] at hdone
    have hpieces : (c.pieces text).flatMap c.write = before ++ mark ++ after :=
      (c.flatMap_write_pieces text).trans htext
    have hclear : ∀ q ∈ c.placeholdersAt 0 (c.pieces text),
        q.stop ≤ 0 + before.length ∨ 0 + before.length + mark.length ≤ q.start := by
      simpa [← placeholders_eq] using hclear
    obtain ⟨front, back, rfl, -⟩ := exists_of_sweep_outside hpieces hclear hdone
    exact ⟨front, back, rfl⟩

/-! ### A placeholder that fails for want of a value -/

/-- A key resolves below itself to what it resolves to by itself. -/
lemma exists_expandAt_open_iff (hmax : c.maxDepth = none) {key : Text} :
    (∃ bound, (c.expandAt (.ofFunction value) bound [key] 1 key).outcome = .done result) ↔
      c.Ends (.ofFunction value) key (.done result) := by
  constructor
  · rintro ⟨bound, h⟩
    refine ends_of_outcome bound ?_ nofun
    rw [resolveWithin_eq]
    exact expandAt_returnsAs (List.nil_subset [key]) (Nat.zero_le 1) bound key result h
  · intro h
    obtain ⟨-, hends⟩ := (ends_iff_endsBlind hmax (by simp)).1 h
    classical
    -- for the least bound for which the key ends it is stuck below itself, so it never meets itself
    have hblind := Nat.find_spec hends
    have hstuck : ∀ n, Nat.find hends = n + 1 → ∀ k ∈ [key], c.Stuck (.ofFunction value) n k := by
      intro n hn k hk depth text
      obtain rfl := List.mem_singleton.1 hk
      refine substitute_exhausted.2 ⟨k, .key, ?_⟩
      by_contra hne
      have hdepth := expandBlind_endsAs_depth hmax n depth 0 k hne
      have hmore := (expandBlind_continues (Nat.le_succ n) 0 k).eq (hdepth ▸ hne)
      have hle := Nat.find_min' hends (hmore ▸ hn ▸ hblind)
      omega
    refine ⟨Nat.find hends, ?_⟩
    have hne : (c.expandBlind (.ofFunction value) (Nat.find hends) 0 key).outcome ≠ .exhausted := by
      simp [hblind]
    have hdepth := expandBlind_endsAs_depth hmax (Nat.find hends) 0 1 key hne
    rw [expandBlind_endsAs hmax _ [key] 1 key hstuck (hdepth ▸ hne), hdepth, hblind]

/-- A placeholder fails for want of a value itself, and not in some text below it, exactly if the
run is strict and there is no value for what its key resolves to. -/
lemma fails_itself_iff (hp : p ∈ c.placeholders text) :
    c.Fails (.ofFunction value) p.whole (.unresolvable name p.whole) ↔
      c.lenient = false ∧ c.valueAt value name = none ∧
        ∃ bound, (c.expandAt (.ofFunction value) bound [p.key] 1 p.key).outcome = .done name := by
  constructor
  · rintro ⟨_, ⟨-, bound, rfl⟩, h⟩
    rw [resolveWithin_eq] at h
    obtain ⟨hl, hv, key, hkey, hn⟩ := missing_of_expandAt h
    obtain rfl : key = p.key := by simpa [pieces_whole hp] using hkey
    exact ⟨hl, hv, bound, hn⟩
  · rintro ⟨hl, hv, bound, hn⟩
    refine fails_iff.2 ⟨bound, ?_⟩
    rw [pieces_whole hp, sweep]
    exact Run.outcome_bind_failed.2 (.inl (substitute_failed.2 (.inr ⟨name, hn, hv, hl, rfl⟩)))

lemma valueAt_eq_none_iff (hsep : c.separator = some mark) (hmark : mark ≠ []) :
    c.valueAt value name = none ↔ value name = none ∧ ¬mark <:+: name := by
  rw [valueAt, Option.or_eq_none_iff, Option.map_eq_none_iff, split_eq_none_iff hsep hmark]

/-- **A listed default.** A placeholder is listed with a default exactly if the separator stands in
its key. If it does so outside of the placeholders in the key, the placeholder never fails for want
of a value itself. Otherwise it may: it does so only in a strict run, where its key resolves to a
name that has no value and that the separator does not stand in, and always then if nesting has no
limit. -/
theorem listed_default_is_found {c : Config} {mark : Text} (hsep : c.separator = some mark)
    (hmark : mark ≠ []) (value : Text → Option Text) {text : Text} {p : Placeholder}
    (hp : p ∈ c.placeholders text) :
    (p.default ≠ none ↔ mark <:+: p.key) ∧
    (p.default ≠ none → c.StandsOutside mark p.key →
      ∀ name, ¬c.Fails (.ofFunction value) p.whole (.unresolvable name p.whole)) ∧
    (∀ name, c.Fails (.ofFunction value) p.whole (.unresolvable name p.whole) →
      c.lenient = false ∧ value name = none ∧ ¬mark <:+: name ∧
        c.Ends (.ofFunction value) p.key (.done name)) ∧
    (c.lenient = false → c.maxDepth = none →
      ∀ name, value name = none → ¬mark <:+: name → c.Ends (.ofFunction value) p.key (.done name) →
        c.Fails (.ofFunction value) p.whole (.unresolvable name p.whole)) := by
  refine ⟨?_, fun _ houtside name h => ?_, fun name h => ?_, fun hl hmax name hv hclear hends => ?_⟩
  · rw [default_eq_of_mem_placeholders hp, ne_eq, split_eq_none_iff hsep hmark, not_not]
  · obtain ⟨-, hv, bound, hn⟩ := (fails_itself_iff hp).1 h
    exact ((valueAt_eq_none_iff hsep hmark).1 hv).2 (houtside.infix_of_expandAt hn)
  · obtain ⟨hl, hv, bound, hn⟩ := (fails_itself_iff hp).1 h
    obtain ⟨hv, hclear⟩ := (valueAt_eq_none_iff hsep hmark).1 hv
    refine ⟨hl, hv, hclear, ends_of_outcome bound ?_ nofun⟩
    rw [resolveWithin_eq]
    exact expandAt_returnsAs (List.nil_subset [p.key]) (Nat.zero_le 1) bound p.key name hn
  · exact (fails_itself_iff hp).2 ⟨hl, (valueAt_eq_none_iff hsep hmark).2 ⟨hv, hclear⟩,
      (exists_expandAt_open_iff hmax).2 hends⟩

/-- Braces, where a placeholder without a value is a failure. -/
def strictBraces : Config := braces.withPolicy false

/-- In `${a${b}:c}` the separator stands behind the placeholder in the key. -/
theorem trailing_default_is_found :
    strictBraces.separator = some [':'] ∧
    ∃ p ∈ strictBraces.placeholders ['$', '{', 'a', '$', '{', 'b', '}', ':', 'c', '}'],
      p.default = some ['c'] ∧ strictBraces.StandsOutside [':'] p.key ∧ ∀ value name,
        ¬strictBraces.Fails (.ofFunction value) p.whole (.unresolvable name p.whole) := by
  let p := strictBraces.placeholderAt 0 ['a', '$', '{', 'b', '}', ':', 'c']
  have hp : p ∈ strictBraces.placeholders ['$', '{', 'a', '$', '{', 'b', '}', ':', 'c', '}'] := by
    decide +kernel
  have hdefault : p.default = some ['c'] := by decide
  have houtside : strictBraces.StandsOutside [':'] p.key :=
    ⟨['a', '$', '{', 'b', '}'], ['c'], rfl, by decide +kernel⟩
  refine ⟨rfl, p, hp, hdefault, houtside, fun value => ?_⟩
  exact (listed_default_is_found rfl (by simp) value hp).2.1 (by simp [hdefault]) houtside

/-- `${${a:b}}` is listed with the default `b}`. What is in it resolves to `b`, and it fails itself
if that has no value. -/
theorem nested_default_is_lost :
    strictBraces.separator = some [':'] ∧ strictBraces.lenient = false ∧
    ∃ p ∈ strictBraces.placeholders ['$', '{', '$', '{', 'a', ':', 'b', '}', '}'],
      p.default = some ['b', '}'] ∧
      strictBraces.Fails (.ofFunction fun _ => none) p.whole (.unresolvable ['b'] p.whole) := by
  refine ⟨rfl, rfl, strictBraces.placeholderAt 0 ['$', '{', 'a', ':', 'b', '}'], by decide +kernel,
    by decide, ?_⟩
  exact ends_of_outcome 4 (by decide +kernel) nofun

end ConfigText.Config
