import ConfigText.Proofs.Plain
import Mathlib

/-!
Markup: literals and placeholders in a row, where a key is markup again.

Reading what markup is written as gives its placeholders back. The marks may be put together in any
way, with nothing between them, as long as no character opens and closes and the bracket stands in
the opener only once.
-/

namespace ConfigText

/-- Literals and placeholders in a row. Literals hold no character of an opener or a closer. -/
inductive Markup (c : Config)
  | empty
  | literal (text : Text) (clean : ∀ ch ∈ text, ch ∉ c.opener ∧ ch ∉ c.closer) (rest : Markup c)
  | placeholder (key rest : Markup c)

namespace Markup

variable {c : Config}

/-- The markup as text. -/
def render : Markup c → Text
  | empty => []
  | literal text _ rest => text ++ rest.render
  | placeholder key rest => c.enclose key.render ++ rest.render

def hasPlaceholder : Markup c → Bool
  | empty => false
  | literal _ _ rest => rest.hasPlaceholder
  | placeholder _ _ => true

/-- The placeholders of the row itself, where its text starts at `position`. -/
def spans (position : ℕ) : Markup c → List Placeholder
  | empty => []
  | literal text _ rest => rest.spans (position + text.length)
  | placeholder key rest =>
    { key := key.render
      name := (c.split key.render).1
      default := (c.split key.render).2
      whole := c.enclose key.render
      start := position
      stop := position + (c.enclose key.render).length
      nested := key.hasPlaceholder } :: rest.spans (position + (c.enclose key.render).length)

end Markup

namespace Config

variable {c : Config} {text : Text}

/-! ### Openers without a placeholder -/

lemma infix_append_iff_of_not_mem {token rest : Text} (hne : token ≠ [])
    (h : ∀ ch ∈ text, ch ∉ token) : token <:+: text ++ rest ↔ token <:+: rest := by
  induction text with
  | nil => rfl
  | cons ch text ih =>
    rw [List.cons_append, List.infix_cons_iff, ih fun ch' h' => h ch' (List.mem_cons_of_mem _ h')]
    exact or_iff_right (not_prefix_of_not_mem hne (h ch List.mem_cons_self))

lemma opens_render (t : Markup c) : c.opens t.render = t.hasPlaceholder := by
  rw [Bool.eq_iff_iff, opens, Text.has_iff]
  induction t with
  | empty => simp [Markup.render, Markup.hasPlaceholder, c.opener_ne]
  | literal text clean rest ih =>
    rw [Markup.render, infix_append_iff_of_not_mem c.opener_ne fun ch hch => (clean ch hch).1, ih]
    rfl
  | placeholder key rest _ _ =>
    have : c.opener <:+: (Markup.placeholder key rest).render :=
      ⟨[], key.render ++ c.closer ++ rest.render, by simp [Markup.render, enclose]⟩
    simpa [Markup.hasPlaceholder] using this

/-! ### Reading markup -/

lemma pieces_markup_literal {rest : Markup c}
    (clean : ∀ ch ∈ text, ch ∉ c.opener ∧ ch ∉ c.closer) :
    c.pieces (Markup.literal text clean rest).render =
      text.map .char ++ c.pieces rest.render :=
  pieces_append_of_head_not_mem (fun hm => (clean _ hm).1 (List.head_mem _)) _

section Reading

/-- A text is read character by character if no closer and no bracket starts in it. -/
lemma closing_append_of_tails {rest : Text}
    (h : ∀ i < text.length, ¬c.closer <+: (text ++ rest).drop i ∧
      ¬c.bracket <+: (text ++ rest).drop i) (depth : ℕ) :
    c.closing depth (text ++ rest) =
      (c.closing depth rest).map fun (key, after) => (text ++ key, after) := by
  induction text with
  | nil => simp
  | cons ch text ih =>
    obtain ⟨hc, hb⟩ := h 0 (by simp)
    rw [List.cons_append, closing_char c depth (by simpa using hc) (by simpa using hb),
      ih fun i hi => by simpa using h (i + 1) (by simpa using hi), Option.map_map]
    rfl

variable (hdisjoint : ∀ ch ∈ c.opener, ch ∉ c.closer)
  (honce : ∃! i, c.bracket <+: c.opener.drop i)
include hdisjoint

lemma not_closer_prefix_of_mem {ch : Char} (h : ch ∈ c.opener) (rest : Text) :
    ¬c.closer <+: ch :: rest :=
  not_prefix_of_not_mem c.closer_ne (hdisjoint ch h)

include honce

/-- An opener opens one level: in front of its bracket neither mark starts. -/
lemma closing_opener (depth : ℕ) (rest : Text) :
    c.closing depth (c.opener ++ rest) =
      (c.closing (depth + 1) rest).map fun (key, after) => (c.opener ++ key, after) := by
  obtain ⟨front, hfront⟩ := c.bracket_suffix
  obtain ⟨i, -, huniq⟩ := honce
  have hlast : front.length = i := huniq _ (by simp only [← hfront, List.drop_left]; rfl)
  have htails : ∀ j < front.length, ¬c.closer <+: (front ++ (c.bracket ++ rest)).drop j ∧
      ¬c.bracket <+: (front ++ (c.bracket ++ rest)).drop j := by
    intro j hj
    have hdrop : (front ++ (c.bracket ++ rest)).drop j = c.opener.drop j ++ rest := by
      rw [← List.append_assoc, hfront, List.drop_append_of_le_length]
      simp only [← hfront, List.length_append]
      omega
    have hlt : j < c.opener.length := by
      simp only [← hfront, List.length_append]
      omega
    rw [hdrop]
    constructor
    · rw [List.drop_eq_getElem_cons hlt, List.cons_append]
      exact not_closer_prefix_of_mem hdisjoint (List.getElem_mem hlt) _
    · intro hb
      -- the bracket would stand in the opener a second time, further in front
      have hshort : c.bracket.length ≤ (c.opener.drop j).length := by
        simp only [← hfront, List.length_append, List.length_drop]
        omega
      have := huniq j (List.prefix_of_prefix_length_le hb (List.prefix_append _ _) hshort)
      omega
  have hbracket : ¬c.closer <+: c.bracket ++ rest := by
    obtain ⟨b, bs, hb⟩ := List.exists_cons_of_ne_nil c.bracket_ne
    have hmem : b ∈ c.opener := by simp [← hfront, hb]
    rw [hb, List.cons_append]
    exact not_closer_prefix_of_mem hdisjoint hmem _
  rw [← hfront, List.append_assoc, closing_append_of_tails htails, closing_bracket _ _ hbracket,
    Option.map_map]
  congr 1
  funext part
  simp

/-- Markup is read over at every depth. -/
lemma closing_render (t : Markup c) (depth : ℕ) (rest : Text) :
    c.closing depth (t.render ++ rest) =
      (c.closing depth rest).map fun (key, after) => (t.render ++ key, after) := by
  induction t generalizing depth rest with
  | empty => simp [Markup.render]
  | literal text clean more ih =>
    rw [Markup.render, List.append_assoc,
      closing_append_of_forall_not_mem (fun ch hch => (clean ch hch).1)
        (fun ch hch => (clean ch hch).2), ih, Option.map_map]
    congr 1
    funext part
    simp
  | placeholder key more ihkey ihmore =>
    rw [Markup.render, enclose, List.append_assoc, List.append_assoc, List.append_assoc,
      closing_opener hdisjoint honce, ihkey, closing_closer_succ, ihmore]
    simp only [Option.map_map]
    congr 1
    funext part
    simp

lemma pieces_markup_placeholder (key rest : Markup c) :
    c.pieces (Markup.placeholder key rest).render = .hole key.render :: c.pieces rest.render := by
  refine c.pieces_enclose_append ?_
  rw [List.append_assoc, closing_render hdisjoint honce, closing_closer_zero]
  simp

lemma placeholdersAt_render (t : Markup c) (position : ℕ) :
    c.placeholdersAt position (c.pieces t.render) = t.spans position := by
  induction t generalizing position with
  | empty => simp [Markup.render, Markup.spans, pieces, placeholdersAt]
  | literal text clean rest ih =>
    rw [pieces_markup_literal, placeholdersAt_chars, ih]
    rfl
  | placeholder key rest _ ih =>
    rw [pieces_markup_placeholder hdisjoint honce, placeholdersAt, ih, placeholderAt,
      opens_render]
    rfl

lemma stray_not_mem_pieces_render (t : Markup c) : .stray ∉ c.pieces t.render := by
  induction t with
  | empty => simp [Markup.render, pieces]
  | literal text clean rest ih =>
    rw [pieces_markup_literal]
    simpa using ih
  | placeholder key rest _ ih =>
    rw [pieces_markup_placeholder hdisjoint honce]
    simpa using ih

end Reading

/-- **Reading is inverse to writing.** Where no character opens and closes and the bracket stands
in the opener once, the placeholders found in the text of any markup are those that it was written
with, at the places where they were written, and nothing is wrong with the text. -/
theorem placeholders_render (c : Config) (hdisjoint : ∀ ch ∈ c.opener, ch ∉ c.closer)
    (honce : ∃! i, c.bracket <+: c.opener.drop i) (t : Markup c) :
    c.placeholders t.render = t.spans 0 ∧
      (c.validate t.render).valid = true ∧ (c.validate t.render).errors c = [] := by
  have hstrays : (c.validate t.render).unterminated = [] := by
    rw [unterminated_validate, straysAt_eq_nil_iff]
    exact stray_not_mem_pieces_render hdisjoint honce t
  refine ⟨?_, ?_, ?_⟩
  · rw [placeholders_eq, placeholdersAt_render hdisjoint honce]
  · rw [Validation.valid, hstrays]
    rfl
  · rw [Validation.errors, hstrays]
    rfl

/-- Marks without a bracket. -/
def angles : Config where
  opener := ['<', '<']
  closer := ['>', '>']
  separator := none
  lenient := true
  maxDepth := none
  bracket := ['<', '<']
  opener_ne := List.cons_ne_nil _ _
  closer_ne := List.cons_ne_nil _ _
  bracket_ne := List.cons_ne_nil _ _
  bracket_suffix := List.suffix_rfl

/-- Marks next to marks, as in `a${${a}${}}${a}`. -/
def crowded (c : Config) (clean : ∀ ch ∈ ['a'], ch ∉ c.opener ∧ ch ∉ c.closer) : Markup c :=
  .literal ['a'] clean (.placeholder
    (.placeholder (.literal ['a'] clean .empty) (.placeholder .empty .empty))
    (.placeholder (.literal ['a'] clean .empty) .empty))

def crowdedText (c : Config) : Text :=
  ['a'] ++ (c.enclose (c.enclose ['a'] ++ c.enclose []) ++ c.enclose ['a'])

/-- Crowded marks are told apart, with a single bracket and without one. -/
theorem placeholders_crowdedText :
    ((∀ ch ∈ braces.opener, ch ∉ braces.closer) ∧ ∃! i, braces.bracket <+: braces.opener.drop i) ∧
    ((∀ ch ∈ angles.opener, ch ∉ angles.closer) ∧ ∃! i, angles.bracket <+: angles.opener.drop i) ∧
    (braces.placeholders (crowdedText braces)).map (fun p => (p.key, p.start, p.stop, p.nested)) =
      [(braces.enclose ['a'] ++ braces.enclose [], 1, 11, true), (['a'], 11, 15, false)] ∧
    (angles.placeholders (crowdedText angles)).map (fun p => (p.key, p.start, p.stop, p.nested)) =
      [(angles.enclose ['a'] ++ angles.enclose [], 1, 14, true), (['a'], 14, 19, false)] := by
  have hbraces : ∃! i, braces.bracket <+: braces.opener.drop i := by
    refine ⟨1, by decide, fun i hi => ?_⟩
    rcases i with _ | _ | i
    · exact absurd hi (by decide)
    · rfl
    · simp [braces] at hi
  have hangles : ∃! i, angles.bracket <+: angles.opener.drop i := by
    refine ⟨0, by decide, fun i hi => ?_⟩
    rcases i with _ | _ | i
    · rfl
    · exact absurd hi (by decide)
    · simp [angles] at hi
  have hb : ∀ ch ∈ braces.opener, ch ∉ braces.closer := by simp [braces]
  have ha : ∀ ch ∈ angles.opener, ch ∉ angles.closer := by simp [angles]
  refine ⟨⟨hb, hbraces⟩, ⟨ha, hangles⟩, ?_, ?_⟩
  · exact congrArg _ (placeholders_render braces hb hbraces (crowded braces (by simp [braces]))).1
  · exact congrArg _ (placeholders_render angles ha hangles (crowded angles (by simp [angles]))).1

end Config
end ConfigText
