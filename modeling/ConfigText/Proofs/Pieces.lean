import ConfigText.Resolve
import Mathlib

/-!
A text as a row of pieces: characters, openers without a closer, and placeholders.

Pieces are cut off the front of a text, so they need no positions and do not see what stands
before them. The searches by position find the same placeholders, and replacing in place is one
pass over the pieces of the text as it was at the start.
-/

namespace ConfigText

/-- A part of a text. -/
inductive Piece
  | char (ch : Char)
  /-- An opener that no closer balances. -/
  | stray
  /-- A placeholder with its key. -/
  | hole (key : Text)
  deriving DecidableEq

namespace Config

variable (c : Config)

/-- The key up to the closer that balances `depth` open brackets more than the closers in
between, and the text behind that closer. -/
def closing (depth : ℕ) (text : Text) : Option (Text × Text) :=
  match text with
  | [] => none
  | ch :: rest =>
    if c.closer <+: ch :: rest then
      match depth with
      | 0 => some ([], (ch :: rest).drop c.closer.length)
      | depth + 1 =>
        (closing depth ((ch :: rest).drop c.closer.length)).map fun (key, after) =>
          (c.closer ++ key, after)
    else if c.bracket <+: ch :: rest then
      (closing (depth + 1) ((ch :: rest).drop c.bracket.length)).map fun (key, after) =>
        (c.bracket ++ key, after)
    else (closing depth rest).map fun (key, after) => (ch :: key, after)
termination_by text.length
decreasing_by
  · have := List.length_pos_iff.2 c.closer_ne
    simp; omega
  · have := List.length_pos_iff.2 c.bracket_ne
    simp; omega
  · simp

lemma closing_eq_append {depth : ℕ} {text key after : Text}
    (h : c.closing depth text = some (key, after)) : text = key ++ c.closer ++ after := by
  fun_induction c.closing depth text generalizing key after with
  | case1 => simp at h
  | case2 ch rest hc =>
    obtain ⟨u, hu⟩ := hc
    simp only [Option.some.injEq, Prod.mk.injEq] at h
    obtain ⟨rfl, rfl⟩ := h
    simp [← hu]
  | case3 ch rest hc depth ih =>
    obtain ⟨⟨k, a⟩, hk, he⟩ := Option.map_eq_some_iff.1 h
    simp only [Prod.mk.injEq] at he
    obtain ⟨rfl, rfl⟩ := he
    obtain ⟨u, hu⟩ := hc
    have := ih hk
    simp only [← hu, List.drop_left] at this ⊢
    simp [this]
  | case4 depth ch rest _ hb ih =>
    obtain ⟨⟨k, a⟩, hk, he⟩ := Option.map_eq_some_iff.1 h
    simp only [Prod.mk.injEq] at he
    obtain ⟨rfl, rfl⟩ := he
    obtain ⟨u, hu⟩ := hb
    have := ih hk
    simp only [← hu, List.drop_left] at this ⊢
    simp [this]
  | case5 depth ch rest _ _ ih =>
    obtain ⟨⟨k, a⟩, hk, he⟩ := Option.map_eq_some_iff.1 h
    simp only [Prod.mk.injEq] at he
    obtain ⟨rfl, rfl⟩ := he
    simp [ih hk]

lemma closing_length {depth : ℕ} {text key after : Text}
    (h : c.closing depth text = some (key, after)) : after.length < text.length := by
  have := List.length_pos_iff.2 c.closer_ne
  rw [c.closing_eq_append h]
  simp; omega

/-! ### One token at a time -/

lemma closing_closer_zero (after : Text) : c.closing 0 (c.closer ++ after) = some ([], after) := by
  obtain ⟨t, ts, ht⟩ := List.exists_cons_of_ne_nil c.closer_ne
  have hp : c.closer <+: t :: (ts ++ after) := ⟨after, by simp [ht]⟩
  rw [show c.closer ++ after = t :: (ts ++ after) by simp [ht], closing.eq_def]
  simp only [if_pos hp]
  simp [ht]

lemma closing_closer_succ (depth : ℕ) (after : Text) :
    c.closing (depth + 1) (c.closer ++ after) =
      (c.closing depth after).map fun (key, rest) => (c.closer ++ key, rest) := by
  obtain ⟨t, ts, ht⟩ := List.exists_cons_of_ne_nil c.closer_ne
  have hp : c.closer <+: t :: (ts ++ after) := ⟨after, by simp [ht]⟩
  have hd : (t :: (ts ++ after)).drop c.closer.length = after := by
    rw [← List.cons_append, ← ht, List.drop_left]
  rw [show c.closer ++ after = t :: (ts ++ after) by simp [ht], closing.eq_def]
  simp only [if_pos hp, hd]

lemma closing_bracket (depth : ℕ) {after : Text} (hn : ¬c.closer <+: c.bracket ++ after) :
    c.closing depth (c.bracket ++ after) =
      (c.closing (depth + 1) after).map fun (key, rest) => (c.bracket ++ key, rest) := by
  obtain ⟨t, ts, ht⟩ := List.exists_cons_of_ne_nil c.bracket_ne
  have hp : c.bracket <+: t :: (ts ++ after) := ⟨after, by simp [ht]⟩
  have hd : (t :: (ts ++ after)).drop c.bracket.length = after := by
    rw [← List.cons_append, ← ht, List.drop_left]
  have heq : c.bracket ++ after = t :: (ts ++ after) := by simp [ht]
  rw [heq] at hn ⊢
  rw [closing.eq_def]
  simp only [if_neg hn, if_pos hp, hd]

lemma closing_char (depth : ℕ) {ch : Char} {rest : Text} (hc : ¬c.closer <+: ch :: rest)
    (hb : ¬c.bracket <+: ch :: rest) :
    c.closing depth (ch :: rest) =
      (c.closing depth rest).map fun (key, after) => (ch :: key, after) := by
  rw [closing.eq_def]
  simp only [if_neg hc, if_neg hb]

/-- What stands behind the closer does not matter for where it is: the text may end there. -/
lemma closing_cut {depth : ℕ} {text key after : Text}
    (h : c.closing depth text = some (key, after)) :
    c.closing depth (key ++ c.closer) = some (key, []) := by
  fun_induction c.closing depth text generalizing key after with
  | case1 => simp at h
  | case2 ch rest hc =>
    obtain ⟨rfl, -⟩ : [] = key ∧ _ := by simpa using h
    simpa using c.closing_closer_zero []
  | case3 ch rest hc depth ih =>
    obtain ⟨⟨k, a⟩, hk, he⟩ := Option.map_eq_some_iff.1 h
    obtain ⟨rfl, rfl⟩ : c.closer ++ k = key ∧ a = after := by simpa using he
    rw [List.append_assoc, closing_closer_succ, ih hk]
    rfl
  | case4 depth ch rest hn hb ih =>
    obtain ⟨⟨k, a⟩, hk, he⟩ := Option.map_eq_some_iff.1 h
    obtain ⟨rfl, rfl⟩ : c.bracket ++ k = key ∧ a = after := by simpa using he
    have hle : c.bracket ++ (k ++ c.closer) <+: ch :: rest := by
      obtain ⟨u, hu⟩ := hb
      have := c.closing_eq_append hk
      simp only [← hu, List.drop_left] at this
      exact ⟨a, by simp [← hu, this]⟩
    rw [List.append_assoc, closing_bracket c depth fun hc => hn (hc.trans hle), ih hk]
    rfl
  | case5 depth ch rest hn hb ih =>
    obtain ⟨⟨k, a⟩, hk, he⟩ := Option.map_eq_some_iff.1 h
    obtain ⟨rfl, rfl⟩ : ch :: k = key ∧ a = after := by simpa using he
    have hle : ch :: (k ++ c.closer) <+: ch :: rest :=
      ⟨a, by simp [c.closing_eq_append hk]⟩
    rw [List.cons_append, closing_char c depth (fun hc => hn (hc.trans hle))
      (fun hc => hb (hc.trans hle)), ih hk]
    rfl

/-! ### Pieces -/

/-- The pieces of a text, from left to right. -/
def pieces (text : Text) : List Piece :=
  match text with
  | [] => []
  | ch :: rest =>
    if c.opener <+: ch :: rest then
      match _h : c.closing 0 ((ch :: rest).drop c.opener.length) with
      | some (key, after) => .hole key :: pieces after
      | none => .stray :: pieces ((ch :: rest).drop c.opener.length)
    else .char ch :: pieces rest
termination_by text.length
decreasing_by
  · have := c.closing_length _h
    simp at this ⊢; omega
  · have := List.length_pos_iff.2 c.opener_ne
    simp; omega
  · simp

/-- What a piece looks like in the text. -/
def write : Piece → Text
  | .char ch => [ch]
  | .stray => c.opener
  | .hole key => c.enclose key

/-- Cutting a text into pieces loses nothing. -/
lemma flatMap_write_pieces (text : Text) : (c.pieces text).flatMap c.write = text := by
  fun_induction c.pieces text with
  | case1 => rfl
  | case2 ch rest ho key after h ih =>
    obtain ⟨u, hu⟩ := ho
    have := c.closing_eq_append h
    simp only [← hu, List.drop_left] at this
    simp [write, enclose, ih, ← hu, this]
  | case3 ch rest ho h ih =>
    obtain ⟨u, hu⟩ := ho
    simp only [← hu, List.drop_left] at ih
    simp [write, ← hu, ih]
  | case4 ch rest ho ih => simp [write, ih]

/-! ### Openers -/

lemma pieces_opener (after : Text) :
    c.pieces (c.opener ++ after) =
      match c.closing 0 after with
      | some (key, rest) => .hole key :: c.pieces rest
      | none => .stray :: c.pieces after := by
  obtain ⟨o, os, ho⟩ := List.exists_cons_of_ne_nil c.opener_ne
  have hp : c.opener <+: o :: (os ++ after) := ⟨after, by simp [ho]⟩
  have hd : (o :: (os ++ after)).drop c.opener.length = after := by
    rw [← List.cons_append, ← ho, List.drop_left]
  rw [show c.opener ++ after = o :: (os ++ after) by simp [ho], pieces, if_pos hp]
  split <;> rename_i h <;> rw [hd] at h <;> simp only [h, hd]

lemma pieces_of_cut_none {text : Text} (h : Text.cut c.opener text = none) :
    c.pieces text = text.map .char := by
  induction text with
  | nil => simp [pieces]
  | cons ch rest ih =>
    rw [Text.cut] at h
    split at h
    · cases h
    · next hp =>
      rw [pieces, if_neg hp, ih (Option.map_eq_none_iff.1 h)]
      rfl

/-- In front of the first opener there are only characters. -/
lemma pieces_of_cut {text before after : Text}
    (h : Text.cut c.opener text = some (before, after)) :
    c.pieces text = before.map .char ++ c.pieces (c.opener ++ after) := by
  induction text generalizing before with
  | nil => simp [Text.cut, c.opener_ne] at h
  | cons ch rest ih =>
    have happ := Text.cut_eq_append h
    rw [Text.cut] at h
    split at h
    · obtain ⟨rfl, rfl⟩ : [] = before ∧ _ = after := by simpa using h
      simp only [List.nil_append] at happ
      rw [happ]
      simp
    · next hp =>
      obtain ⟨⟨b, a⟩, hc, he⟩ := Option.map_eq_some_iff.1 h
      obtain ⟨rfl, rfl⟩ : ch :: b = before ∧ a = after := by simpa using he
      rw [pieces, if_neg hp, ih hc]
      rfl

lemma pieces_enclose_append {key rest : Text}
    (h : c.closing 0 (key ++ c.closer ++ rest) = some (key, rest)) :
    c.pieces (c.enclose key ++ rest) = .hole key :: c.pieces rest := by
  rw [enclose, List.append_assoc, List.append_assoc, pieces_opener, ← List.append_assoc, h]

/-- A placeholder cut out of a text is a single piece. -/
lemma pieces_enclose {key : Text} (h : c.closing 0 (key ++ c.closer) = some (key, [])) :
    c.pieces (c.enclose key) = [.hole key] := by
  have : c.pieces (c.enclose key ++ []) = _ := c.pieces_enclose_append (by simpa using h)
  simpa [pieces] using this

lemma closing_of_hole_mem {text key : Text} (h : .hole key ∈ c.pieces text) :
    c.closing 0 (key ++ c.closer) = some (key, []) := by
  fun_induction c.pieces text with
  | case1 => cases h
  | case2 ch rest ho k after hk ih =>
    rcases List.mem_cons.1 h with he | h
    · obtain rfl : key = k := by simpa using he
      exact c.closing_cut hk
    · exact ih h
  | case3 ch rest ho hk ih => exact ih (by simpa using h)
  | case4 ch rest ho ih => exact ih (by simpa using h)

/-! ### Only the marks matter -/

section Marks

variable {c d : Config} (hopener : d.opener = c.opener) (hcloser : d.closer = c.closer)
  (hbracket : d.bracket = c.bracket)
include hcloser hbracket

lemma closing_eq_of_marks (depth : ℕ) (text : Text) :
    d.closing depth text = c.closing depth text := by
  fun_induction c.closing depth text with
  | case1 => rw [closing]
  | case2 ch rest hc =>
    rw [closing.eq_def]
    simp only [hcloser, if_pos hc]
  | case3 ch rest hc depth ih =>
    rw [closing.eq_def]
    simp only [hcloser, if_pos hc, ih]
  | case4 depth ch rest hn hb ih =>
    rw [closing.eq_def]
    simp only [hcloser, hbracket, if_neg hn, if_pos hb, ih]
  | case5 depth ch rest hn hb ih =>
    rw [closing.eq_def]
    simp only [hcloser, hbracket, if_neg hn, if_neg hb, ih]

include hopener in
lemma pieces_eq_of_marks (text : Text) : d.pieces text = c.pieces text := by
  have hclosing := closing_eq_of_marks hcloser hbracket
  fun_induction c.pieces text with
  | case1 => rw [pieces]
  | case2 ch rest ho key after h ih =>
    obtain ⟨u, hu⟩ := ho
    rw [← hu, List.drop_left] at h
    rw [← hu, ← hopener, pieces_opener, hclosing, h]
    exact congrArg _ ih
  | case3 ch rest ho h ih =>
    obtain ⟨u, hu⟩ := ho
    rw [← hu, List.drop_left] at h ih
    rw [← hu, List.drop_left, ← hopener, pieces_opener, hclosing, h]
    exact congrArg _ ih
  | case4 ch rest ho ih => rw [pieces, hopener, if_neg ho, ih]

end Marks

/-- The usual marks, where a placeholder without a value stays and nesting has no limit. -/
def braces : Config where
  opener := ['$', '{']
  closer := ['}']
  separator := some [':']
  lenient := true
  maxDepth := none
  bracket := ['{']
  opener_ne := List.cons_ne_nil _ _
  closer_ne := List.cons_ne_nil _ _
  bracket_ne := List.cons_ne_nil _ _
  bracket_suffix := List.suffix_cons _ _

end Config
end ConfigText
