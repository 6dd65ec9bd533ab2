import ConfigText.Proofs.Scan
import Mathlib

/-!
Every opener of a text is accounted for.

Listing placeholders and looking for faults are two scans of one text. Both take the next opener,
look for its end, and go on behind the placeholder or behind the opener. What they list together
from a position on is stated as one account. A step that finds an opener without a closer and one
that finds a placeholder each extend the account of what comes behind, and so whole scans have one.
-/

namespace ConfigText

namespace Text

variable {token text before after : Text} {start first : ℕ}

/-- The token stands nowhere before the place where it is cut out. -/
lemma not_prefix_drop_of_cut (h : cut token text = some (before, after)) {i : ℕ}
    (hi : i < before.length) : ¬token <+: text.drop i := by
  induction text generalizing before i with
  | nil =>
    rw [cut] at h
    split at h
    · obtain ⟨rfl, -⟩ : [] = before ∧ _ := by simpa using h
      exact absurd hi (Nat.not_lt_zero i)
    · cases h
  | cons c rest ih =>
    rw [cut] at h
    split at h
    · obtain ⟨rfl, -⟩ : [] = before ∧ _ := by simpa using h
      exact absurd hi (Nat.not_lt_zero i)
    · next hstarts =>
      obtain ⟨⟨b, a⟩, hcut, he⟩ := Option.map_eq_some_iff.1 h
      obtain ⟨rfl, rfl⟩ : c :: b = before ∧ a = after := by simpa using he
      cases i with
      | zero => exact hstarts
      | succ i => exact ih hcut (Nat.lt_of_succ_lt_succ hi)

lemma not_prefix_drop_of_find?_none (h : find? token text start = none) {position : ℕ}
    (hle : start ≤ position) : ¬token <+: text.drop position := by
  intro hstands
  obtain ⟨offset, rfl⟩ := Nat.exists_eq_add_of_le hle
  rw [← List.drop_drop] at hstands
  have hhas : has token (text.drop start) = true :=
    has_iff.2 (hstands.isInfix.trans (List.drop_suffix _ _).isInfix)
  rw [has, Option.map_eq_none_iff.1 h] at hhas
  cases hhas

/-- What is found is the first place of the token. -/
lemma find?_eq_some (h : find? token text start = some first) :
    start ≤ first ∧ token <+: text.drop first ∧
      ∀ position, start ≤ position → position < first → ¬token <+: text.drop position := by
  obtain ⟨⟨before, after⟩, hcut, rfl⟩ := Option.map_eq_some_iff.1 h
  refine ⟨Nat.le_add_right _ _, ?_, fun position hle hlt => ?_⟩
  · have happ := cut_eq_append hcut
    rw [← List.drop_drop, happ, List.append_assoc, List.drop_left]
    exact List.prefix_append _ _
  · obtain ⟨offset, rfl⟩ := Nat.exists_eq_add_of_le hle
    rw [← List.drop_drop]
    exact not_prefix_drop_of_cut hcut (Nat.lt_of_add_lt_add_left hlt)

end Text

namespace Config

variable {c : Config} {text : Text} {position start stop : ℕ}

lemma findEnd_of_end?_none (h : c.end? text start = none) : c.findEnd text start = -1 := by
  by_contra hne
  rw [end?, if_neg hne] at h
  cases h

/-! ### Steps of listing placeholders -/

lemma placeholdersFrom_of_find?_none (hs : Text.find? c.opener text position = none) :
    c.placeholdersFrom text position = [] := by
  rw [placeholdersFrom]
  split
  · rfl
  · next hfound => cases hs.symm.trans hfound

lemma placeholdersFrom_of_end?_none (hs : Text.find? c.opener text position = some start)
    (he : c.end? text start = none) :
    c.placeholdersFrom text position = c.placeholdersFrom text (start + c.opener.length) := by
  obtain ⟨before, hb, -, hp⟩ := c.exists_of_end?_none hs he
  rw [placeholdersFrom_eq, placeholdersFrom_eq, hp, placeholdersAt_chars, ← hb, placeholdersAt]

lemma placeholdersFrom_of_end?_some (hs : Text.find? c.opener text position = some start)
    (he : c.end? text start = some stop) :
    c.placeholdersFrom text position =
      c.placeholderBetween text start stop :: c.placeholdersFrom text (stop + c.closer.length) := by
  rw [placeholdersFrom]
  split
  · next hfound => cases hs.symm.trans hfound
  · next start' hfound =>
    obtain rfl : start = start' := Option.some.inj (hs.symm.trans hfound)
    split
    · next hend => cases he.symm.trans hend
    · next stop' hend =>
      obtain rfl : stop = stop' := Option.some.inj (he.symm.trans hend)
      rfl

/-- A placeholder is what stands in the text where it lies: the marks around its key. -/
lemma whole_placeholderBetween (hs : Text.find? c.opener text position = some start)
    (he : c.end? text start = some stop) :
    (c.placeholderBetween text start stop).whole =
      c.enclose (c.placeholderBetween text start stop).key := by
  obtain ⟨before, key, hb, hk, hstop, happ, -⟩ := c.exists_of_end?_some hs he
  rw [c.placeholderBetween_eq hb hk hstop happ]
  rfl

/-! ### Accounts -/

/-- What the two scans list together of a text, from a position on: placeholders, openers that
nothing closes and names that are blank. -/
structure Account (c : Config) (text : Text) (position : ℕ) (spans : List Placeholder)
    (faults : Validation) : Prop where
  /-- A placeholder lies in the text, and is what stands there: the marks around its key. -/
  span_eq : ∀ p ∈ spans, position ≤ p.start ∧ p.start < p.stop ∧ p.stop ≤ text.length ∧
    p.whole = text.extract p.start p.stop ∧ p.whole = c.enclose p.key
  /-- Each placeholder begins behind the one before it. -/
  spans_apart : spans.Pairwise fun p q => p.stop ≤ q.start
  /-- Where an error is there is an opener that nothing closes. -/
  unterminated : ∀ q ∈ faults.unterminated,
    position ≤ q ∧ c.opener <+: text.drop q ∧ c.findEnd text q = -1
  /-- Each of these openers begins behind the one before it. -/
  unterminated_apart : faults.unterminated.Pairwise fun q r => q + c.opener.length ≤ r
  /-- None of them touches a placeholder. -/
  unterminated_outside : ∀ q ∈ faults.unterminated, ∀ p ∈ spans,
    q + c.opener.length ≤ p.start ∨ p.stop ≤ q
  /-- No opener is left out: it begins in a placeholder, or it is one that nothing closes or
  overlaps one. -/
  covered : ∀ place, position ≤ place → c.opener <+: text.drop place →
    (∃ p ∈ spans, p.start ≤ place ∧ place < p.stop) ∨ place ∈ faults.unterminated ∨
      ∃ q ∈ faults.unterminated, q < place ∧ place < q + c.opener.length
  /-- The warnings stand where the placeholders do whose name is blank. -/
  nameless_eq : faults.nameless =
    (spans.filter fun p => Text.trimBy Text.isBlank p.name = []).map Placeholder.start

/-- Where no opener is found there is nothing to list. -/
lemma Account.of_find?_none (hs : Text.find? c.opener text position = none) :
    c.Account text position [] ⟨[], []⟩ where
  span_eq := by simp
  spans_apart := .nil
  unterminated := by simp
  unterminated_apart := .nil
  unterminated_outside := by simp
  covered place hle hstands := absurd hstands (Text.not_prefix_drop_of_find?_none hs hle)
  nameless_eq := rfl

variable {spans : List Placeholder} {faults faults' : Validation}

/-- An opener without a closer comes before all that is listed behind it. -/
lemma Account.of_end?_none (hs : Text.find? c.opener text position = some start)
    (he : c.end? text start = none)
    (h : c.Account text (start + c.opener.length) spans faults) :
    c.Account text position spans
      { faults with unterminated := start :: faults.unterminated } := by
  obtain ⟨hle, hstands, hfirst⟩ := Text.find?_eq_some hs
  exact {
    span_eq := fun p hp => by
      obtain ⟨hstart, hspan⟩ := h.span_eq p hp
      exact ⟨by omega, hspan⟩
    spans_apart := h.spans_apart
    unterminated := by
      refine List.forall_mem_cons.2 ⟨⟨hle, hstands, findEnd_of_end?_none he⟩, fun q hq => ?_⟩
      obtain ⟨hstart, herror⟩ := h.unterminated q hq
      exact ⟨by omega, herror⟩
    unterminated_apart :=
      List.pairwise_cons.2 ⟨fun q hq => (h.unterminated q hq).1, h.unterminated_apart⟩
    unterminated_outside :=
      List.forall_mem_cons.2 ⟨fun p hp => .inl (h.span_eq p hp).1, h.unterminated_outside⟩
    covered := fun place hplace hopener => by
      -- no opener stands before the one that is found, and those in it overlap it
      rcases lt_trichotomy place start with hlt | rfl | hgt
      · exact absurd hopener (hfirst place hplace hlt)
      · exact .inr (.inl List.mem_cons_self)
      · by_cases hin : place < start + c.opener.length
        · exact .inr (.inr ⟨start, List.mem_cons_self, hgt, hin⟩)
        · obtain hspan | herror | ⟨q, hq, hoverlaps⟩ := h.covered place (by omega) hopener
          · exact .inl hspan
          · exact .inr (.inl (List.mem_cons_of_mem _ herror))
          · exact .inr (.inr ⟨q, List.mem_cons_of_mem _ hq, hoverlaps⟩)
    nameless_eq := h.nameless_eq }

/-- A placeholder comes before all that is listed behind it. -/
lemma Account.of_end?_some (hs : Text.find? c.opener text position = some start)
    (he : c.end? text start = some stop)
    (h : c.Account text (stop + c.closer.length) spans faults)
    (hunterminated : faults'.unterminated = faults.unterminated)
    (hnameless : faults'.nameless =
      if Text.allBlank (c.split (c.keyBetween text start stop)).1 then start :: faults.nameless
      else faults.nameless) :
    c.Account text position (c.placeholderBetween text start stop :: spans) faults' := by
  obtain ⟨hle, -, hfirst⟩ := Text.find?_eq_some hs
  obtain ⟨hstop, hlength⟩ := c.end?_bounds he
  have hcloser := List.length_pos_iff.2 c.closer_ne
  exact {
    span_eq := by
      refine List.forall_mem_cons.2 ⟨⟨hle, ?_, hlength, rfl, whole_placeholderBetween hs he⟩,
        fun p hp => ?_⟩
      · change start < stop + c.closer.length
        omega
      · obtain ⟨hstart, hspan⟩ := h.span_eq p hp
        exact ⟨by omega, hspan⟩
    spans_apart := List.pairwise_cons.2 ⟨fun p hp => (h.span_eq p hp).1, h.spans_apart⟩
    unterminated := fun q hq => by
      obtain ⟨hstart, herror⟩ := h.unterminated q (hunterminated ▸ hq)
      exact ⟨by omega, herror⟩
    unterminated_apart := hunterminated ▸ h.unterminated_apart
    unterminated_outside := fun q hq => by
      have hq : q ∈ faults.unterminated := hunterminated ▸ hq
      exact List.forall_mem_cons.2 ⟨.inr (h.unterminated q hq).1, h.unterminated_outside q hq⟩
    covered := fun place hplace hopener => by
      rw [hunterminated]
      by_cases hbefore : place < start
      · exact absurd hopener (hfirst place hplace hbefore)
      · by_cases hin : place < stop + c.closer.length
        · exact .inl ⟨_, List.mem_cons_self, Nat.le_of_not_lt hbefore, hin⟩
        · obtain ⟨p, hp, hspan⟩ | herror := h.covered place (Nat.le_of_not_lt hin) hopener
          · exact .inl ⟨p, List.mem_cons_of_mem _ hp, hspan⟩
          · exact .inr herror
    nameless_eq := by
      have hblank : Text.allBlank (c.split (c.keyBetween text start stop)).1 = true ↔
          Text.trimBy Text.isBlank (c.placeholderBetween text start stop).name = [] :=
        Text.trimBy_eq_nil_iff.symm
      rw [hnameless, h.nameless_eq, List.filter_cons]
      simp only [hblank, decide_eq_true_eq]
      split <;> rfl }

/-- What is listed of a text from a position on is an account of it. -/
lemma account_from (c : Config) (text : Text) (position : ℕ) :
    c.Account text position (c.placeholdersFrom text position) (c.validateFrom text position) := by
  fun_induction c.validateFrom text position with
  | case1 position hs =>
    rw [placeholdersFrom_of_find?_none hs]
    exact .of_find?_none hs
  | case2 position start hs he rest ih =>
    rw [placeholdersFrom_of_end?_none hs he]
    exact .of_end?_none hs he ih
  | case3 position start hs stop he rest hblank ih =>
    rw [placeholdersFrom_of_end?_some hs he]
    exact .of_end?_some hs he ih rfl (if_pos hblank).symm
  | case4 position start hs stop he rest hblank ih =>
    rw [placeholdersFrom_of_end?_some hs he]
    exact .of_end?_some hs he ih rfl (if_neg hblank).symm

/-- **Every opener is accounted for.** The placeholders of a text lie in it one behind the other,
each of them the marks around its key. The errors are told of openers that nothing closes, which
touch neither a placeholder nor each other. Every opener of the text begins in a placeholder or is
told of, or it overlaps one that is. The warnings are told of the placeholders whose name is blank.
The text is said to hold a placeholder exactly if one is listed. -/
theorem openers_accounted (c : Config) (text : Text) :
    c.Account text 0 (c.placeholders text) (c.validate text) ∧
    (c.validate text).errors c = (c.validate text).unterminated.map (fun place =>
      "Unterminated placeholder at position ".toList ++ Text.ofNat place ++ ": missing '".toList
        ++ c.closer ++ "'".toList) ∧
    (c.validate text).warnings = (c.validate text).nameless.map (fun place =>
      "Empty placeholder name at position ".toList ++ Text.ofNat place) ∧
    (c.hasPlaceholders text = true ↔ c.placeholders text ≠ []) := by
  refine ⟨c.account_from text 0, rfl, rfl, ?_⟩
  rw [hasPlaceholders, Bool.not_eq_true', List.isEmpty_eq_false_iff]

end Config
end ConfigText
