import ConfigText.Proofs.Paths
import Mathlib

/-!
Plain texts: no character is one of a mark.

A plain text is not cut anywhere, whatever stands behind it. It resolves to itself, and a plain key
is its own name.
-/

namespace ConfigText.Config

/-- No character of the text is one of a mark. -/
def Plain (c : Config) (text : Text) : Prop :=
  ∀ ch ∈ text, ch ∉ c.opener ∧ ch ∉ c.closer ∧ ch ∉ c.separator.getD []

instance (c : Config) (text : Text) : Decidable (c.Plain text) :=
  List.decidableBAll (p := fun ch => ch ∉ c.opener ∧ ch ∉ c.closer ∧ ch ∉ c.separator.getD []) text

variable {c : Config} {text : Text}

lemma not_prefix_of_not_mem {token rest : Text} {ch : Char} (hne : token ≠ []) (h : ch ∉ token) :
    ¬token <+: ch :: rest := by
  rintro ⟨more, hmore⟩
  obtain ⟨t, ts, rfl⟩ := List.exists_cons_of_ne_nil hne
  obtain ⟨rfl, -⟩ : t = ch ∧ _ := by simpa using hmore
  exact h List.mem_cons_self

lemma closing_append_of_forall_not_mem (ho : ∀ ch ∈ text, ch ∉ c.opener)
    (hc : ∀ ch ∈ text, ch ∉ c.closer) (depth : ℕ) (rest : Text) :
    c.closing depth (text ++ rest) =
      (c.closing depth rest).map fun (key, after) => (text ++ key, after) := by
  induction text with
  | nil => simp
  | cons ch text ih =>
    have hbracket : ch ∉ c.bracket := fun hm =>
      ho ch List.mem_cons_self (c.bracket_suffix.subset hm)
    rw [List.cons_append,
      closing_char c depth (not_prefix_of_not_mem c.closer_ne (hc ch List.mem_cons_self))
        (not_prefix_of_not_mem c.bracket_ne hbracket),
      ih (fun ch' h => ho ch' (List.mem_cons_of_mem _ h))
        (fun ch' h => hc ch' (List.mem_cons_of_mem _ h)),
      Option.map_map]
    rfl

lemma closing_plain_append (h : c.Plain text) (depth : ℕ) (rest : Text) :
    c.closing depth (text ++ rest) =
      (c.closing depth rest).map fun (key, after) => (text ++ key, after) :=
  closing_append_of_forall_not_mem (fun ch hch => (h ch hch).1) (fun ch hch => (h ch hch).2.1)
    depth rest

lemma closing_plain (h : c.Plain text) (rest : Text) :
    c.closing 0 (text ++ c.closer ++ rest) = some (text, rest) := by
  rw [List.append_assoc, closing_plain_append h, closing_closer_zero]
  simp

/-- A part in which no opener can start is a row of characters. -/
lemma pieces_append_of_head_not_mem (h : c.opener.head c.opener_ne ∉ text) (rest : Text) :
    c.pieces (text ++ rest) = text.map .char ++ c.pieces rest := by
  induction text with
  | nil => rfl
  | cons ch text ih =>
    rw [List.mem_cons, not_or] at h
    have hp : ¬c.opener <+: ch :: (text ++ rest) := by
      rintro ⟨more, hmore⟩
      have := congrArg List.head? hmore
      rw [List.head?_append_of_ne_nil _ c.opener_ne, List.head?_eq_some_head c.opener_ne] at this
      exact h.1 (by simpa using this)
    rw [List.cons_append, pieces, if_neg hp, ih h.2]
    rfl

lemma pieces_of_head_not_mem (h : c.opener.head c.opener_ne ∉ text) :
    c.pieces text = text.map .char := by
  simpa [pieces] using pieces_append_of_head_not_mem h []

lemma pieces_plain_append (h : c.Plain text) (rest : Text) :
    c.pieces (text ++ rest) = text.map .char ++ c.pieces rest :=
  pieces_append_of_head_not_mem (fun hm => (h _ hm).1 (List.head_mem _)) rest

lemma pieces_plain (h : c.Plain text) : c.pieces text = text.map .char :=
  pieces_of_head_not_mem fun hm => (h _ hm).1 (List.head_mem _)

lemma pieces_enclose_plain_append (h : c.Plain text) (rest : Text) :
    c.pieces (c.enclose text ++ rest) = .hole text :: c.pieces rest :=
  c.pieces_enclose_append (closing_plain h rest)

lemma pieces_enclose_plain (h : c.Plain text) : c.pieces (c.enclose text) = [.hole text] := by
  simpa [pieces] using pieces_enclose_plain_append h []

lemma cut_eq_none {mark : Text} (hne : mark ≠ []) (h : ∀ ch ∈ text, ch ∉ mark) :
    Text.cut mark text = none := by
  induction text with
  | nil => simp [Text.cut, hne]
  | cons ch text ih =>
    rw [Text.cut, if_neg (not_prefix_of_not_mem hne (h ch List.mem_cons_self)),
      ih fun ch' hch' => h ch' (List.mem_cons_of_mem _ hch')]
    rfl

lemma split_plain (h : c.Plain text) : c.split text = (text, none) := by
  unfold split splitDefault
  split
  · rfl
  · rfl
  · next mark hne hsep =>
    have hcut : Text.cut mark text = none :=
      cut_eq_none hne fun ch hch => by simpa [hsep] using (h ch hch).2.2
    rw [hcut]

lemma valueAt_plain (h : c.Plain text) (value : Text → Option Text) :
    c.valueAt value text = value text := by
  simp [valueAt, split_plain h]

section Outcomes

variable {lookup : Lookup} {fuel depth : ℕ} {path : List Text} {failure : Failure} {result : Text}
  (hmax : c.maxDepth = none)
include hmax

lemma expandAt_chars (h : c.pieces text = text.map .char) :
    (c.expandAt lookup (fuel + 1) path depth text).outcome = .done text := by
  rw [expandAt_succ (tooDeep_eq_none hmax depth), h, sweep_only_chars]
  rfl

lemma expandAt_plain (h : c.Plain text) :
    (c.expandAt lookup (fuel + 1) path depth text).outcome = .done text :=
  expandAt_chars hmax (pieces_plain h)

lemma eq_of_expandAt_plain (h : c.Plain text)
    (hd : (c.expandAt lookup fuel path depth text).outcome = .done result) : result = text := by
  cases fuel with
  | zero => cases hd
  | succ fuel =>
    rw [expandAt_plain hmax h] at hd
    exact (Outcome.done.inj hd).symm

lemma expandAt_plain_ne_failed (h : c.Plain text) :
    (c.expandAt lookup fuel path depth text).outcome ≠ .failed failure := by
  cases fuel with
  | zero => exact nofun
  | succ fuel => simp [expandAt_plain hmax h]

end Outcomes

end ConfigText.Config
