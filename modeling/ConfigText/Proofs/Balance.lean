import ConfigText.Proofs.Scan
import Mathlib

/-!
Where a placeholder ends, by counting.

Behind its opener a text is cut into tokens: closers, brackets and single characters. The end of the
placeholder is the first closer before which there are as many closers as brackets. That is a fact
about rows of tokens, which the search by position takes over through the texts of the tokens. Where
closer and bracket are single characters it can be counted off the text itself.
-/

namespace ConfigText

/-- What the search for an end takes in one step. -/
inductive Token
  | closer
  | bracket
  | char (ch : Char)
  deriving DecidableEq

namespace Token

/-- There are as many closers as brackets, and `depth` more. -/
def Balanced (depth : ℕ) (tokens : List Token) : Prop :=
  tokens.count .closer = tokens.count .bracket + depth

/-- Behind these tokens stands the first closer with balanced tokens before it. -/
structure IsEnd (depth : ℕ) (tokens before : List Token) : Prop where
  closer_next : before ++ [.closer] <+: tokens
  balanced : Balanced depth before
  first : ∀ front, front ++ [.closer] <+: before → ¬Balanced depth front

/-- The tokens before the closer that balances `depth` brackets more than the closers in between. -/
def untilEnd : ℕ → List Token → Option (List Token)
  | _, [] => none
  | 0, .closer :: _ => some []
  | depth + 1, .closer :: more => (untilEnd depth more).map (.closer :: ·)
  | depth, .bracket :: more => (untilEnd (depth + 1) more).map (.bracket :: ·)
  | depth, .char ch :: more => (untilEnd depth more).map (.char ch :: ·)

variable {depth depth' : ℕ} {token : Token} {tokens before more : List Token}

lemma balanced_nil_iff : Balanced depth [] ↔ depth = 0 := by
  simp [Balanced, eq_comm]

lemma balanced_closer_cons : Balanced (depth + 1) (.closer :: more) ↔ Balanced depth more := by
  simp only [Balanced, List.count_cons_self, List.count_cons_of_ne (by decide : closer ≠ bracket)]
  omega

lemma balanced_bracket_cons : Balanced depth (.bracket :: more) ↔ Balanced (depth + 1) more := by
  simp only [Balanced, List.count_cons_self, List.count_cons_of_ne (by decide : bracket ≠ closer)]
  omega

lemma balanced_char_cons (ch : Char) : Balanced depth (.char ch :: more) ↔ Balanced depth more := by
  simp [Balanced]

/-- A token in front of the end changes the number of open brackets, and nothing else. -/
lemma isEnd_cons_iff (hfirst : token = .closer → depth ≠ 0)
    (hshift : ∀ tokens, Balanced depth (token :: tokens) ↔ Balanced depth' tokens) :
    IsEnd depth (token :: more) before ↔
      ∃ rest, before = token :: rest ∧ IsEnd depth' more rest := by
  constructor
  · rintro ⟨hnext, hbalanced, hno⟩
    cases before with
    | nil =>
      have hcloser : closer = token := (List.cons_prefix_cons.1 hnext).1
      exact absurd (balanced_nil_iff.1 hbalanced) (hfirst hcloser.symm)
    | cons head rest =>
      obtain ⟨rfl, hrest⟩ := List.cons_prefix_cons.1 hnext
      refine ⟨rest, rfl, hrest, (hshift rest).1 hbalanced, fun front hfront hfb => ?_⟩
      exact hno (head :: front) (List.cons_prefix_cons.2 ⟨rfl, hfront⟩) ((hshift front).2 hfb)
  · rintro ⟨rest, rfl, hnext, hbalanced, hno⟩
    refine ⟨List.cons_prefix_cons.2 ⟨rfl, hnext⟩, (hshift rest).2 hbalanced, ?_⟩
    intro front hfront hfb
    cases front with
    | nil =>
      have hcloser : closer = token := (List.cons_prefix_cons.1 hfront).1
      exact hfirst hcloser.symm (balanced_nil_iff.1 hfb)
    | cons head front =>
      obtain ⟨rfl, hrest⟩ := List.cons_prefix_cons.1 hfront
      exact hno front hrest ((hshift front).1 hfb)

lemma untilEnd_eq_some_iff : untilEnd depth tokens = some before ↔ IsEnd depth tokens before := by
  induction tokens generalizing depth before with
  | nil =>
    constructor
    · intro h
      cases h
    · rintro ⟨hnext, -, -⟩
      simp at hnext
  | cons token more ih =>
    -- all but the end itself hands the question on to the tokens behind
    have hstep {depth' : ℕ} (hfirst : token = .closer → depth ≠ 0)
        (hshift : ∀ tokens, Balanced depth (token :: tokens) ↔ Balanced depth' tokens) :
        (untilEnd depth' more).map (token :: ·) = some before ↔
          IsEnd depth (token :: more) before := by
      rw [isEnd_cons_iff hfirst hshift, Option.map_eq_some_iff]
      simp only [ih, and_comm, eq_comm]
    cases token with
    | closer =>
      cases depth with
      | zero =>
        rw [untilEnd, Option.some.injEq]
        constructor
        · rintro rfl
          exact ⟨List.cons_prefix_cons.2 ⟨rfl, List.nil_prefix⟩, balanced_nil_iff.2 rfl, by simp⟩
        · rintro ⟨hnext, -, hno⟩
          cases before with
          | nil => rfl
          | cons head rest =>
            obtain ⟨rfl, -⟩ := List.cons_prefix_cons.1 hnext
            have hfirst : [] ++ [closer] <+: closer :: rest := ⟨rest, rfl⟩
            exact absurd (balanced_nil_iff.2 rfl) (hno [] hfirst)
      | succ depth => exact hstep (fun _ => Nat.succ_ne_zero depth) fun _ => balanced_closer_cons
    | bracket => exact hstep nofun fun _ => balanced_bracket_cons
    | char ch => exact hstep nofun fun _ => balanced_char_cons ch

/-- Where a closer with balanced tokens before it stands there is a first one. -/
lemma exists_isEnd (hnext : before ++ [.closer] <+: tokens) (hbalanced : Balanced depth before) :
    ∃ first, IsEnd depth tokens first := by
  induction hlength : before.length using Nat.strong_induction_on generalizing before with
  | _ length ih =>
    by_cases hno : ∀ front, front ++ [.closer] <+: before → ¬Balanced depth front
    · exact ⟨before, hnext, hbalanced, hno⟩
    · push Not at hno
      obtain ⟨front, hfront, hfb⟩ := hno
      have hshorter : front.length < length := by
        have := hfront.length_le
        simp only [List.length_append, List.length_singleton] at this
        omega
      have hbefore : before <+: tokens := (List.prefix_append before [closer]).trans hnext
      exact ih front.length hshorter (hfront.trans hbefore) hfb rfl

lemma untilEnd_eq_none_iff :
    untilEnd depth tokens = none ↔ ∀ before, before ++ [.closer] <+: tokens →
      ¬Balanced depth before := by
  constructor
  · intro hnone before hnext hbalanced
    obtain ⟨first, hend⟩ := exists_isEnd hnext hbalanced
    rw [untilEnd_eq_some_iff.2 hend] at hnone
    cases hnone
  · intro hno
    cases h : untilEnd depth tokens with
    | none => rfl
    | some before =>
      have hend := untilEnd_eq_some_iff.1 h
      exact absurd hend.balanced (hno before hend.closer_next)

end Token

namespace Config

variable (c : Config)

/-- The tokens of a text, from left to right. A closer goes before a bracket, a bracket before a
single character. -/
def tokens (text : Text) : List Token :=
  match text with
  | [] => []
  | ch :: rest =>
    if c.closer <+: ch :: rest then .closer :: tokens ((ch :: rest).drop c.closer.length)
    else if c.bracket <+: ch :: rest then .bracket :: tokens ((ch :: rest).drop c.bracket.length)
    else .char ch :: tokens rest
termination_by text.length
decreasing_by
  · have := List.length_pos_iff.2 c.closer_ne
    simp; omega
  · have := List.length_pos_iff.2 c.bracket_ne
    simp; omega
  · simp

/-- What a token looks like in the text. -/
def writeToken : Token → Text
  | .closer => c.closer
  | .bracket => c.bracket
  | .char ch => [ch]

/-- Cutting a text into tokens loses nothing. -/
lemma flatMap_writeToken_tokens (text : Text) : (c.tokens text).flatMap c.writeToken = text := by
  fun_induction c.tokens text with
  | case1 => rfl
  | case2 ch rest hc ih =>
    rw [List.flatMap_cons, ih]
    exact List.prefix_iff_eq_append.1 hc
  | case3 ch rest hc hb ih =>
    rw [List.flatMap_cons, ih]
    exact List.prefix_iff_eq_append.1 hb
  | case4 ch rest hc hb ih =>
    rw [List.flatMap_cons, ih]
    rfl

section UntilEnd

variable {c}

lemma map_fst_writeToken_append (token : Token) {split : Option (Text × Text)}
    {row : Option (List Token)} (h : split.map Prod.fst = row.map (·.flatMap c.writeToken)) :
    (split.map fun (key, after) => (c.writeToken token ++ key, after)).map Prod.fst =
      (row.map (token :: ·)).map (·.flatMap c.writeToken) := by
  calc (split.map fun (key, after) => (c.writeToken token ++ key, after)).map Prod.fst
      = (split.map Prod.fst).map (c.writeToken token ++ ·) := by
        rw [Option.map_map, Option.map_map]
        rfl
    _ = (row.map (·.flatMap c.writeToken)).map (c.writeToken token ++ ·) := by rw [h]
    _ = (row.map (token :: ·)).map (·.flatMap c.writeToken) := by
        rw [Option.map_map, Option.map_map]
        rfl

/-- The key that is cut off a text is what the tokens before the end look like. -/
lemma map_fst_closing (depth : ℕ) (text : Text) :
    (c.closing depth text).map Prod.fst =
      (Token.untilEnd depth (c.tokens text)).map (·.flatMap c.writeToken) := by
  fun_induction c.closing depth text with
  | case1 => simp [tokens, Token.untilEnd]
  | case2 ch rest hc => simp [tokens, if_pos hc, Token.untilEnd]
  | case3 ch rest hc depth ih =>
    rw [tokens, if_pos hc, Token.untilEnd]
    exact map_fst_writeToken_append .closer ih
  | case4 depth ch rest hc hb ih =>
    rw [tokens, if_neg hc, if_pos hb, Token.untilEnd]
    exact map_fst_writeToken_append .bracket ih
  | case5 depth ch rest hc hb ih =>
    rw [tokens, if_neg hc, if_neg hb, Token.untilEnd]
    exact map_fst_writeToken_append (.char ch) ih

end UntilEnd

/-! ### Single characters -/

section Single

variable {c} {opening closing : Char} {depth : ℕ} {text rest : Text}

/-- Up to and with a position the closing character comes more than `depth` times more often than
the opening one. -/
def Exceeds (opening closing : Char) (depth : ℕ) (text : Text) (position : ℕ) : Prop :=
  (text.take (position + 1)).count opening + depth < (text.take (position + 1)).count closing

lemma exceeds_closing_cons (hne : opening ≠ closing) (position : ℕ) :
    Exceeds opening closing (depth + 1) (closing :: rest) (position + 1) ↔
      Exceeds opening closing depth rest position := by
  simp only [Exceeds, List.take_succ_cons, List.count_cons_self, List.count_cons_of_ne hne.symm]
  omega

lemma exceeds_opening_cons (hne : opening ≠ closing) (position : ℕ) :
    Exceeds opening closing depth (opening :: rest) (position + 1) ↔
      Exceeds opening closing (depth + 1) rest position := by
  simp only [Exceeds, List.take_succ_cons, List.count_cons_self, List.count_cons_of_ne hne]
  omega

lemma exceeds_other_cons {ch : Char} (ho : ch ≠ opening) (hc : ch ≠ closing) (position : ℕ) :
    Exceeds opening closing depth (ch :: rest) (position + 1) ↔
      Exceeds opening closing depth rest position := by
  simp only [Exceeds, List.take_succ_cons, List.count_cons_of_ne ho, List.count_cons_of_ne hc]

lemma not_exceeds_zero {ch : Char} (h : ch = closing → depth ≠ 0) :
    ¬Exceeds opening closing depth (ch :: rest) 0 := by
  intro hexceeds
  have hone : [ch].count opening + depth < [ch].count closing := hexceeds
  have hle : [ch].count closing ≤ 1 := List.count_le_length
  have hcount : 0 < [ch].count closing := by omega
  have hch : closing = ch := List.mem_singleton.1 (List.count_pos_iff.1 hcount)
  have := h hch.symm
  omega

/-- This is the first position with the property, if there is one. -/
def IsFirst (p : ℕ → Prop) : Option ℕ → Prop
  | none => ∀ position, ¬p position
  | some first => IsLeast {position | p position} first

lemma IsFirst.succ {p q : ℕ → Prop} {first? : Option ℕ} (hzero : ¬p 0)
    (hshift : ∀ position, p (position + 1) ↔ q position) (h : IsFirst q first?) :
    IsFirst p (first?.map (· + 1)) := by
  cases first? with
  | none =>
    intro position hp
    cases position with
    | zero => exact hzero hp
    | succ position => exact h position ((hshift position).1 hp)
  | some first =>
    refine ⟨(hshift first).2 h.1, fun position hp => ?_⟩
    cases position with
    | zero => exact absurd hp hzero
    | succ position => exact Nat.succ_le_succ (h.2 ((hshift position).1 hp))

/-- The key is as long as the first position where the closing character exceeds. -/
lemma isFirst_closing (hb : c.bracket = [opening]) (hc : c.closer = [closing])
    (hne : opening ≠ closing) (depth : ℕ) (text : Text) :
    IsFirst (Exceeds opening closing depth text)
      ((c.closing depth text).map fun split => split.1.length) := by
  -- a token of one character moves all positions behind it by one
  have hlength {token : Text} {split : Option (Text × Text)} (htoken : token.length = 1) :
      (split.map fun (key, after) => (token ++ key, after)).map (fun split => split.1.length) =
        (split.map fun split => split.1.length).map (· + 1) := by
    cases split with
    | none => rfl
    | some split => simp [htoken, Nat.add_comm]
  have hstarts {ch ch' : Char} {rest : Text} : [ch] <+: ch' :: rest ↔ ch = ch' := by simp
  fun_induction c.closing depth text with
  | case1 =>
    intro position hexceeds
    simp [Exceeds] at hexceeds
  | case2 ch rest hcloser =>
    rw [hc, hstarts] at hcloser
    subst hcloser
    refine ⟨?_, fun position _ => Nat.zero_le position⟩
    simp [Exceeds, hne.symm]
  | case3 ch rest hcloser depth ih =>
    rw [hc, hstarts] at hcloser
    subst hcloser
    rw [hlength (by rw [hc]; rfl)]
    rw [hc] at ih ⊢
    exact ih.succ (not_exceeds_zero fun _ => Nat.succ_ne_zero depth) (exceeds_closing_cons hne)
  | case4 depth ch rest hcloser hbracket ih =>
    rw [hb, hstarts] at hbracket
    subst hbracket
    rw [hlength (by rw [hb]; rfl)]
    rw [hb] at ih ⊢
    exact ih.succ (not_exceeds_zero fun h => absurd h hne) (exceeds_opening_cons hne)
  | case5 depth ch rest hcloser hbracket ih =>
    rw [hc, hstarts] at hcloser
    rw [hb, hstarts] at hbracket
    have hoc : ch ≠ opening := Ne.symm hbracket
    have hcc : ch ≠ closing := Ne.symm hcloser
    have hfirst := ih.succ (not_exceeds_zero fun h => absurd h hcc) (exceeds_other_cons hoc hcc)
    rw [← hlength (List.length_singleton (a := ch))] at hfirst
    exact hfirst

end Single

/-! ### The end by position -/

section Ends

variable {c} {text : Text} {start stop : ℕ}

/-- The position so far behind `start`, and -1 if there is none. -/
def positionFrom (start : ℕ) : Option ℕ → ℤ
  | some offset => ((start + offset : ℕ) : ℤ)
  | none => -1

lemma positionFrom_eq_natCast_iff {offset? : Option ℕ} :
    positionFrom start offset? = stop ↔
      ∃ offset, offset? = some offset ∧ stop = start + offset := by
  cases offset? with
  | none => simp [positionFrom]
  | some offset =>
    simp only [positionFrom, Nat.cast_inj, Option.some.injEq, exists_eq_left']
    exact eq_comm

lemma positionFrom_eq_neg_one_iff {offset? : Option ℕ} :
    positionFrom start offset? = -1 ↔ offset? = none := by
  cases offset? with
  | none => simp [positionFrom]
  | some offset =>
    have hne : ((start + offset : ℕ) : ℤ) ≠ -1 := by omega
    exact iff_of_false hne (Option.some_ne_none offset)

/-- The end lies as far behind the opener as the key is long. -/
lemma findEnd_eq_positionFrom (c : Config) (text : Text) (start : ℕ) :
    c.findEnd text start = positionFrom (start + c.opener.length)
      ((c.closing 0 (text.drop (start + c.opener.length))).map fun split => split.1.length) := by
  have h : c.closerFrom text 0 ((start + c.opener.length : ℕ) : ℤ) = _ := c.closerFrom_natCast rfl
  rw [findEnd, ← Nat.cast_add, h]
  cases c.closing 0 (text.drop (start + c.opener.length)) <;> rfl

lemma findEnd_eq_untilEnd (c : Config) (text : Text) (start : ℕ) :
    c.findEnd text start = positionFrom (start + c.opener.length)
      ((Token.untilEnd 0 (c.tokens (text.drop (start + c.opener.length)))).map fun before =>
        (before.flatMap c.writeToken).length) := by
  have hkeys := congrArg (Option.map List.length)
    (map_fst_closing (c := c) 0 (text.drop (start + c.opener.length)))
  rw [Option.map_map, Option.map_map] at hkeys
  rw [findEnd_eq_positionFrom]
  exact congrArg _ hkeys

/-- An end is a closer of the text, behind the opener. -/
lemma matchesAt_of_findEnd {stop : ℤ} (h : c.findEnd text start = stop) (hne : stop ≠ -1) :
    (start + c.opener.length : ℕ) ≤ stop ∧ stop + c.closer.length ≤ text.length ∧
      Text.matchesAt text stop c.closer = true := by
  rw [findEnd_eq_positionFrom] at h
  cases hclosing : c.closing 0 (text.drop (start + c.opener.length)) with
  | none =>
    rw [hclosing] at h
    exact absurd h.symm hne
  | some split =>
    obtain ⟨key, after⟩ := split
    rw [hclosing] at h
    obtain rfl : ((start + c.opener.length + key.length : ℕ) : ℤ) = stop := h
    have hcut := c.closing_eq_append hclosing
    have hcloser : c.closer <+: text.drop (start + c.opener.length + key.length) := by
      rw [← List.drop_drop, hcut, List.append_assoc, List.drop_left]
      exact List.prefix_append _ _
    have hmatches := (matchesAt_natCast c.closer_ne).2 hcloser
    exact ⟨by omega, Text.matchesAt_bound (Int.natCast_nonneg _) hmatches, hmatches⟩

lemma extract_eq_take {position offset : ℕ} :
    text.extract position (position + offset + 1) = (text.drop position).take (offset + 1) := by
  rw [List.extract_eq_take_drop]
  congr 1
  omega

/-- Where closer and bracket are single characters, the end is the first position up to which the
closer comes more often than the bracket. -/
lemma findEnd_eq_natCast_iff_isLeast {opening closing : Char} (hb : c.bracket = [opening])
    (hc : c.closer = [closing]) (hne : opening ≠ closing) :
    c.findEnd text start = stop ↔
      IsLeast {position | start + c.opener.length ≤ position ∧
        (text.extract (start + c.opener.length) (position + 1)).count opening <
          (text.extract (start + c.opener.length) (position + 1)).count closing} stop := by
  set behind := start + c.opener.length with hbehind
  have hexceeds (offset : ℕ) : Exceeds opening closing 0 (text.drop behind) offset ↔
      (text.extract behind (behind + offset + 1)).count opening <
        (text.extract behind (behind + offset + 1)).count closing := by
    rw [extract_eq_take]
    rfl
  have hfirst := isFirst_closing hb hc hne 0 (text.drop behind)
  rw [findEnd_eq_positionFrom, positionFrom_eq_natCast_iff, ← hbehind]
  generalize (c.closing 0 (text.drop behind)).map (fun split => split.1.length) = offset?
    at hfirst ⊢
  constructor
  · rintro ⟨offset, rfl, rfl⟩
    refine ⟨⟨Nat.le_add_right _ _, (hexceeds offset).1 hfirst.1⟩, ?_⟩
    rintro position ⟨hle, hcount⟩
    obtain ⟨other, rfl⟩ := Nat.exists_eq_add_of_le hle
    exact Nat.add_le_add_left (hfirst.2 ((hexceeds other).2 hcount)) behind
  · rintro ⟨⟨hle, hcount⟩, hleast⟩
    obtain ⟨offset, rfl⟩ := Nat.exists_eq_add_of_le hle
    cases offset? with
    | none => exact absurd ((hexceeds offset).2 hcount) (hfirst offset)
    | some first =>
      have hge : first ≤ offset := hfirst.2 ((hexceeds offset).2 hcount)
      have hmem := hleast ⟨Nat.le_add_right behind first, (hexceeds first).1 hfirst.1⟩
      exact ⟨first, rfl, by omega⟩

/-- **The end of a placeholder is the balanced closer.** Behind its opener the text is cut into
tokens, a closer before a bracket and a bracket before a single character, and written one after the
other the tokens are the text again. The end is where the first closer stands before which there are
as many closers as brackets, and there is none exactly if no closer is like that. It lies behind the
opener and a closer of the text stands there. Where closer and bracket are single characters, as
with a closing and an opening bracket, it is the first position up to which there are more closers
than brackets. -/
theorem findEnd_is_balanced (c : Config) (text : Text) (start : ℕ) :
    let behind := start + c.opener.length
    let tokens := c.tokens (text.drop behind)
    tokens.flatMap c.writeToken = text.drop behind ∧
    (∀ stop : ℕ, c.findEnd text start = stop ↔
      ∃ before, Token.IsEnd 0 tokens before ∧
        stop = behind + (before.flatMap c.writeToken).length) ∧
    (c.findEnd text start = -1 ↔
      ∀ before, before ++ [.closer] <+: tokens → before.count .closer ≠ before.count .bracket) ∧
    (∀ stop, c.findEnd text start = stop → stop ≠ -1 →
      behind ≤ stop ∧ stop + c.closer.length ≤ text.length ∧
        Text.matchesAt text stop c.closer = true) ∧
    ∀ opening closing, c.bracket = [opening] → c.closer = [closing] → opening ≠ closing →
      ∀ stop : ℕ, c.findEnd text start = stop ↔
        IsLeast {position | behind ≤ position ∧
          (text.extract behind (position + 1)).count opening <
            (text.extract behind (position + 1)).count closing} stop := by
  intro behind tokens
  refine ⟨c.flatMap_writeToken_tokens _, fun stop => ?_, ?_, fun stop => matchesAt_of_findEnd,
    fun opening closing hb hc hne stop => findEnd_eq_natCast_iff_isLeast hb hc hne⟩
  · rw [findEnd_eq_untilEnd, positionFrom_eq_natCast_iff]
    constructor
    · rintro ⟨offset, hoffset, rfl⟩
      obtain ⟨before, hbefore, rfl⟩ := Option.map_eq_some_iff.1 hoffset
      exact ⟨before, Token.untilEnd_eq_some_iff.1 hbefore, rfl⟩
    · rintro ⟨before, hend, rfl⟩
      exact ⟨_, Option.map_eq_some_iff.2 ⟨before, Token.untilEnd_eq_some_iff.2 hend, rfl⟩, rfl⟩
  · rw [findEnd_eq_untilEnd, positionFrom_eq_neg_one_iff, Option.map_eq_none_iff,
      Token.untilEnd_eq_none_iff]
    rfl

/-- In `${a{b}c}` the brace behind `b` closes the one before it, and the last one is the end. -/
theorem findEnd_bracedKey :
    braces.bracket = ['{'] ∧ braces.closer = ['}'] ∧ '{' ≠ '}' ∧
    braces.findEnd ['$', '{', 'a', '{', 'b', '}', 'c', '}'] (0 : ℕ) = (7 : ℕ) ∧
    IsLeast {position | 2 ≤ position ∧
      (['$', '{', 'a', '{', 'b', '}', 'c', '}'].extract 2 (position + 1)).count '{' <
        (['$', '{', 'a', '{', 'b', '}', 'c', '}'].extract 2 (position + 1)).count '}'} 7 := by
  have hend : braces.findEnd ['$', '{', 'a', '{', 'b', '}', 'c', '}'] (0 : ℕ) = (7 : ℕ) := by
    decide +kernel
  have hne : '{' ≠ '}' := by decide
  obtain ⟨-, -, -, -, hsingle⟩ :=
    findEnd_is_balanced braces ['$', '{', 'a', '{', 'b', '}', 'c', '}'] 0
  exact ⟨rfl, rfl, hne, hend, (hsingle '{' '}' rfl rfl hne 7).1 hend⟩

end Ends

end Config
end ConfigText
