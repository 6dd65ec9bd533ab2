import ConfigText.Proofs.Plain
import Mathlib

/-!
Tidy texts: where a character of the opener stands it belongs to the opener of a placeholder, and
the keys are tidy too.

Where no character opens and closes, tidy texts in a row have the placeholders that each of them
has, and a text that begins inside of a tidy text, though not inside of an opener, is tidy.
-/

namespace ConfigText.Config

/-- Characters that stand in no opener, and placeholders with tidy keys. -/
inductive Tidy (c : Config) : Text → Prop
  | nil : Tidy c []
  | char {ch : Char} {rest : Text} : ch ∉ c.opener → Tidy c rest → Tidy c (ch :: rest)
  | hole {key rest : Text} : c.closing 0 (key ++ c.closer) = some (key, []) → Tidy c key →
      Tidy c rest → Tidy c (c.enclose key ++ rest)

variable {c : Config} {text : Text}

lemma tidy_of_forall_not_mem (h : ∀ ch ∈ text, ch ∉ c.opener) : c.Tidy text := by
  induction text with
  | nil => exact .nil
  | cons ch text ih =>
    exact .char (h ch List.mem_cons_self) (ih fun ch' h' => h ch' (List.mem_cons_of_mem _ h'))

lemma Tidy.append {more : Text} (h : c.Tidy text) (hmore : c.Tidy more) :
    c.Tidy (text ++ more) := by
  induction h with
  | nil => exact hmore
  | char hch _ ih => exact .char hch ih
  | hole hclosing hkey _ _ ih =>
    rw [List.append_assoc]
    exact .hole hclosing hkey ih

lemma Tidy.reference {name rest : Text} (hn : c.Plain name) (h : c.Tidy rest) :
    c.Tidy (c.enclose name ++ rest) :=
  .hole (by simpa using closing_plain hn []) (tidy_of_forall_not_mem fun ch hch => (hn ch hch).1) h

lemma tidy_enclose_plain {name : Text} (hn : c.Plain name) : c.Tidy (c.enclose name) :=
  List.append_nil (c.enclose name) ▸ .reference hn .nil

/-- A text that holds a closer settles whether a closer stands in front, whatever follows. -/
lemma not_closer_prefix_append (hin : c.closer <:+: text) (h : ¬c.closer <+: text) (more : Text) :
    ¬c.closer <+: text ++ more :=
  fun hp => h (List.prefix_of_prefix_length_le hp (List.prefix_append _ _) hin.length_le)

section Disjoint

variable (hdisjoint : ∀ ch ∈ c.opener, ch ∉ c.closer)
include hdisjoint

/-- It settles as well whether a bracket stands in front, as no bracket reaches into a closer. -/
lemma not_bracket_prefix_append (hin : c.closer <:+: text) (h : ¬c.bracket <+: text)
    (more : Text) : ¬c.bracket <+: text ++ more := by
  intro hp
  rcases le_total c.bracket.length text.length with hle | hle
  · exact h (List.prefix_of_prefix_length_le hp (List.prefix_append _ _) hle)
  · have hsub := List.prefix_of_prefix_length_le (List.prefix_append text more) hp hle
    have hopener : text ⊆ c.opener := List.Subset.trans hsub.subset c.bracket_suffix.subset
    have hhead := List.head_mem c.closer_ne
    exact hdisjoint _ (hopener (hin.subset hhead)) hhead

/-- What stands behind the closer does not matter for where it is: the text may go on there. -/
lemma closing_append {depth : ℕ} {key after : Text}
    (h : c.closing depth text = some (key, after)) (more : Text) :
    c.closing depth (text ++ more) = some (key, after ++ more) := by
  fun_induction c.closing depth text generalizing key after with
  | case1 => cases h
  | case2 ch rest hc =>
    obtain ⟨rfl, rfl⟩ : [] = key ∧ _ = after := by simpa using h
    obtain ⟨u, hu⟩ := hc
    rw [← hu, List.drop_left, List.append_assoc, closing_closer_zero]
  | case3 ch rest hc depth ih =>
    obtain ⟨⟨k, a⟩, hk, he⟩ := Option.map_eq_some_iff.1 h
    obtain ⟨rfl, rfl⟩ : c.closer ++ k = key ∧ a = after := by simpa using he
    have hmore := ih hk
    obtain ⟨u, hu⟩ := hc
    simp only [← hu, List.drop_left] at hmore
    rw [← hu, List.append_assoc, closing_closer_succ, hmore]
    rfl
  | case4 depth ch rest hn hb ih =>
    obtain ⟨⟨k, a⟩, hk, he⟩ := Option.map_eq_some_iff.1 h
    obtain ⟨rfl, rfl⟩ : c.bracket ++ k = key ∧ a = after := by simpa using he
    have hmore := ih hk
    have hin := c.closing_eq_append hk
    obtain ⟨u, hu⟩ := hb
    simp only [← hu, List.drop_left] at hn hin hmore ⊢
    have hn' := not_closer_prefix_append ⟨c.bracket ++ k, a, by simp [hin]⟩ hn more
    rw [List.append_assoc] at hn' ⊢
    rw [closing_bracket c depth hn', hmore]
    rfl
  | case5 depth ch rest hn hb ih =>
    obtain ⟨⟨k, a⟩, hk, he⟩ := Option.map_eq_some_iff.1 h
    obtain ⟨rfl, rfl⟩ : ch :: k = key ∧ a = after := by simpa using he
    have hin : c.closer <:+: ch :: rest := ⟨ch :: k, a, by simp [c.closing_eq_append hk]⟩
    have hn' : ¬c.closer <+: ch :: (rest ++ more) := not_closer_prefix_append hin hn more
    have hb' : ¬c.bracket <+: ch :: (rest ++ more) :=
      not_bracket_prefix_append hdisjoint hin hb more
    rw [List.cons_append, closing_char c depth hn' hb', ih hk]
    rfl

lemma pieces_enclose_append_of_closing {key : Text}
    (h : c.closing 0 (key ++ c.closer) = some (key, [])) (rest : Text) :
    c.pieces (c.enclose key ++ rest) = .hole key :: c.pieces rest :=
  c.pieces_enclose_append (closing_append hdisjoint h rest)

/-- A tidy text is read on its own, whatever stands behind it. -/
lemma Tidy.pieces_append (h : c.Tidy text) (rest : Text) :
    c.pieces (text ++ rest) = c.pieces text ++ c.pieces rest := by
  induction h with
  | nil => simp [pieces]
  | @char ch text hch _ ih =>
    rw [List.cons_append, pieces, if_neg (not_prefix_of_not_mem c.opener_ne hch), ih, pieces,
      if_neg (not_prefix_of_not_mem c.opener_ne hch)]
    rfl
  | @hole key more hclosing _ _ _ ih =>
    rw [List.append_assoc, pieces_enclose_append_of_closing hdisjoint hclosing, ih,
      pieces_enclose_append_of_closing hdisjoint hclosing]
    rfl

lemma tidy_closer : c.Tidy c.closer :=
  tidy_of_forall_not_mem fun ch hch hmem => hdisjoint ch hmem hch

/-- A tidy text that is cut, but not within an opener, leaves a tidy text. -/
lemma Tidy.of_append {front : Text} (h : c.Tidy (front ++ text))
    (hlast : ∀ ch ∈ front.getLast?, ch ∉ c.opener) : c.Tidy text := by
  generalize hwhole : front ++ text = whole at h
  induction h generalizing front text with
  | nil =>
    obtain ⟨-, rfl⟩ := List.append_eq_nil_iff.1 hwhole
    exact .nil
  | @char ch rest hch hrest ih =>
    cases front with
    | nil =>
      obtain rfl : text = ch :: rest := hwhole
      exact .char hch hrest
    | cons first front =>
      obtain ⟨rfl, rfl⟩ := List.cons.inj hwhole
      exact ih (fun x hx => hlast x (by simp_all [List.getLast?_cons])) rfl
  | @hole key rest hclosing hkey hrest ihkey ihrest =>
    rcases List.eq_nil_or_concat front with rfl | ⟨before, last, rfl⟩
    · obtain rfl : text = c.enclose key ++ rest := hwhole
      exact .hole hclosing hkey hrest
    have hlast' : last ∉ c.opener := hlast last (by simp)
    -- the cut may lie behind the closer, in the closer, in the key or in the opener
    obtain ⟨u, hu, rfl⟩ | ⟨front, hfront, hbehind⟩ := List.append_eq_append_iff.1 hwhole
    · refine .append ?_ hrest
      obtain ⟨v, hv, rfl⟩ | ⟨front, hfront, hbehind⟩ := List.append_eq_append_iff.1 hu.symm
      · refine .append ?_ (tidy_closer hdisjoint)
        obtain ⟨w, hw, rfl⟩ | ⟨front, hfront, hbehind⟩ := List.append_eq_append_iff.1 hv.symm
        · exact absurd (hw ▸ by simp : last ∈ c.opener) hlast'
        · exact ihkey (fun x hx => hlast x (by simp_all)) hbehind.symm
      · exact tidy_of_forall_not_mem fun x hx hmem => hdisjoint x hmem (by simp [hbehind, hx])
    · exact ihrest (fun x hx => hlast x (by simp_all)) hbehind.symm

end Disjoint

end ConfigText.Config
