import ConfigText.Proofs.Pieces
import Mathlib

/-!
Searching by position finds the pieces of a text.

One step of a scan searches the next opener and then its closer. What the step passes over is
stated once for each of its three ends, in terms of the text that is left; the placeholders of a
text and replacing in place follow by the recursion of the scan.
-/

namespace ConfigText.Config

variable (c : Config)

/-! ### Closers by position -/

lemma matchesAt_natCast {text token : Text} {position : ℕ} (h : token ≠ []) :
    Text.matchesAt text position token = true ↔ token <+: text.drop position := by
  have hle : token <+: text.drop position → position ≤ text.length := by
    intro hp
    have := hp.length_le
    have := List.length_pos_iff.2 h
    simp only [List.length_drop] at *
    omega
  simp only [Text.matchesAt, Int.not_lt.2 (Int.natCast_nonneg position), if_false,
    Int.toNat_natCast, Bool.and_eq_true, List.isPrefixOf_iff_prefix, decide_eq_true_eq]
  exact ⟨And.left, fun hp => ⟨hp, hle hp⟩⟩

section Step

variable {c} {text : Text} {position : ℕ}

lemma lt_length_of_prefix {token : Text} (hne : token ≠ []) (h : token <+: text.drop position) :
    position < text.length := by
  have := h.length_le
  have := List.length_pos_iff.2 hne
  simp only [List.length_drop] at *
  omega

lemma closerFrom_closer_zero (h : c.closer <+: text.drop position) :
    c.closerFrom text 0 position = position := by
  have := lt_length_of_prefix c.closer_ne h
  rw [closerFrom.eq_def, if_pos (by omega), if_pos ((matchesAt_natCast c.closer_ne).2 h)]

lemma closerFrom_closer_succ {depth : ℕ} (h : c.closer <+: text.drop position) :
    c.closerFrom text (depth + 1) position =
      c.closerFrom text depth ((position + c.closer.length : ℕ) : ℤ) := by
  have := lt_length_of_prefix c.closer_ne h
  rw [closerFrom.eq_def, if_pos (by omega), if_pos ((matchesAt_natCast c.closer_ne).2 h)]
  rfl

lemma closerFrom_bracket {depth : ℕ} (hc : ¬c.closer <+: text.drop position)
    (h : c.bracket <+: text.drop position) :
    c.closerFrom text depth position =
      c.closerFrom text (depth + 1) ((position + c.bracket.length : ℕ) : ℤ) := by
  have := lt_length_of_prefix c.bracket_ne h
  rw [closerFrom.eq_def, if_pos (by omega), if_neg (mt (matchesAt_natCast c.closer_ne).1 hc),
    if_pos ((matchesAt_natCast c.bracket_ne).2 h)]
  rfl

lemma closerFrom_char {depth : ℕ} (hlt : position < text.length)
    (hc : ¬c.closer <+: text.drop position) (hb : ¬c.bracket <+: text.drop position) :
    c.closerFrom text depth position = c.closerFrom text depth ((position + 1 : ℕ) : ℤ) := by
  rw [closerFrom.eq_def, if_pos (by omega), if_neg (mt (matchesAt_natCast c.closer_ne).1 hc),
    if_neg (mt (matchesAt_natCast c.bracket_ne).1 hb)]
  rfl

end Step

lemma closerFrom_natCast {text rest : Text} {depth position : ℕ}
    (hr : text.drop position = rest) :
    c.closerFrom text depth position =
      match c.closing depth rest with
      | some (key, _) => ((position + key.length : ℕ) : ℤ)
      | none => -1 := by
  fun_induction c.closing depth rest generalizing position with
  | case1 =>
    have := List.drop_eq_nil_iff.1 hr
    rw [closerFrom.eq_def, if_neg (by omega)]
  | case2 ch rest hc =>
    rw [closerFrom_closer_zero (by rwa [hr])]
    simp
  | case3 ch rest hc depth ih =>
    rw [closerFrom_closer_succ (by rwa [hr]), ih (by rw [← hr, List.drop_drop])]
    cases c.closing depth ((ch :: rest).drop c.closer.length) <;> simp [add_comm, add_left_comm]
  | case4 depth ch rest hn hb ih =>
    rw [closerFrom_bracket (by rwa [hr]) (by rwa [hr]), ih (by rw [← hr, List.drop_drop])]
    cases c.closing (depth + 1) ((ch :: rest).drop c.bracket.length) <;>
      simp [add_comm, add_left_comm]
  | case5 depth ch rest hn hb ih =>
    have hlt : position < text.length := by
      by_contra hle
      rw [List.drop_eq_nil_of_le (by omega)] at hr
      cases hr
    rw [closerFrom_char hlt (by rwa [hr]) (by rwa [hr]), ih (by simp [← List.drop_drop, hr])]
    cases c.closing depth rest <;> simp [add_comm, add_left_comm]

lemma end?_eq (text : Text) (start : ℕ) :
    c.end? text start =
      (c.closing 0 (text.drop (start + c.opener.length))).map fun (key, _) =>
        start + c.opener.length + key.length := by
  have h : c.closerFrom text 0 ((start + c.opener.length : ℕ) : ℤ) = _ := c.closerFrom_natCast rfl
  simp only [end?, findEnd, ← Nat.cast_add, h]
  cases c.closing 0 (text.drop (start + c.opener.length)) with
  | none => simp
  | some split =>
    have : ((start + c.opener.length + split.1.length : ℕ) : ℤ) ≠ -1 := by omega
    simp only [if_neg this, Int.toNat_natCast, Option.map_some]

/-! ### Steps of a scan -/

section Steps

variable {text : Text} {position start stop : ℕ}

/-- Where no opener is left there are only characters. -/
lemma pieces_of_find?_none (h : Text.find? c.opener text position = none) :
    c.pieces (text.drop position) = (text.drop position).map .char :=
  c.pieces_of_cut_none (Option.map_eq_none_iff.1 h)

lemma exists_of_find?_some (h : Text.find? c.opener text position = some start) :
    ∃ before, start = position + before.length ∧
      text.drop position = before ++ c.opener ++ text.drop (start + c.opener.length) ∧
      c.pieces (text.drop position) =
        before.map .char ++ c.pieces (c.opener ++ text.drop (start + c.opener.length)) := by
  obtain ⟨⟨before, after⟩, hc, rfl⟩ := Option.map_eq_some_iff.1 h
  have happ := Text.cut_eq_append hc
  have hafter : text.drop (position + before.length + c.opener.length) = after := by
    rw [add_assoc, ← List.drop_drop, happ, ← List.length_append, List.drop_left]
  simp only [hafter]
  exact ⟨before, rfl, happ, c.pieces_of_cut hc⟩

/-- An opener without a closer. -/
lemma exists_of_end?_none (hs : Text.find? c.opener text position = some start)
    (he : c.end? text start = none) :
    ∃ before, start = position + before.length ∧
      text.drop position = before ++ c.opener ++ text.drop (start + c.opener.length) ∧
      c.pieces (text.drop position) =
        before.map .char ++ .stray :: c.pieces (text.drop (start + c.opener.length)) := by
  obtain ⟨before, hb, happ, hp⟩ := c.exists_of_find?_some hs
  rw [end?_eq, Option.map_eq_none_iff] at he
  refine ⟨before, hb, happ, ?_⟩
  rw [hp, pieces_opener, he]

/-- An opener with its closer. -/
lemma exists_of_end?_some (hs : Text.find? c.opener text position = some start)
    (he : c.end? text start = some stop) :
    ∃ before key, start = position + before.length ∧ key = c.keyBetween text start stop ∧
      stop = start + c.opener.length + key.length ∧
      text.drop position = before ++ c.enclose key ++ text.drop (stop + c.closer.length) ∧
      c.pieces (text.drop position) =
        before.map .char ++ .hole key :: c.pieces (text.drop (stop + c.closer.length)) := by
  obtain ⟨before, hb, happ, hp⟩ := c.exists_of_find?_some hs
  rw [end?_eq, Option.map_eq_some_iff] at he
  obtain ⟨⟨key, after⟩, hk, rfl⟩ := he
  have hcut := c.closing_eq_append hk
  have hafter : text.drop (start + c.opener.length + key.length + c.closer.length) = after := by
    rw [add_assoc _ key.length, ← List.drop_drop, hcut, ← List.length_append, List.drop_left]
  refine ⟨before, key, hb, ?_, rfl, ?_, ?_⟩
  · rw [keyBetween, List.extract_eq_take_drop, hcut]
    simp
  · rw [happ, hafter, hcut]
    simp [enclose]
  · rw [hp, pieces_opener, hk, hafter]

end Steps

/-! ### Placeholders -/

/-- The placeholder with a given key at a given position. -/
def placeholderAt (start : ℕ) (key : Text) : Placeholder where
  key := key
  name := (c.split key).1
  default := (c.split key).2
  whole := c.enclose key
  start := start
  stop := start + (c.enclose key).length
  nested := c.opens key

/-- The placeholders among pieces, of which the first starts at `position`. -/
def placeholdersAt (position : ℕ) : List Piece → List Placeholder
  | [] => []
  | .char _ :: more => placeholdersAt (position + 1) more
  | .stray :: more => placeholdersAt (position + c.opener.length) more
  | .hole key :: more =>
    c.placeholderAt position key :: placeholdersAt (position + (c.enclose key).length) more

lemma placeholdersAt_chars (position : ℕ) (before : Text) (more : List Piece) :
    c.placeholdersAt position (before.map .char ++ more) =
      c.placeholdersAt (position + before.length) more := by
  induction before generalizing position with
  | nil => rfl
  | cons ch rest ih =>
    rw [List.map_cons, List.cons_append, placeholdersAt, ih, List.length_cons]
    congr 1
    omega

lemma placeholderBetween_eq {text before key : Text} {position start stop : ℕ}
    (hb : start = position + before.length) (hk : key = c.keyBetween text start stop)
    (hstop : stop = start + c.opener.length + key.length)
    (happ : text.drop position =
      before ++ c.enclose key ++ text.drop (stop + c.closer.length)) :
    c.placeholderBetween text start stop = c.placeholderAt start key := by
  have hlen : stop + c.closer.length = start + (c.enclose key).length := by
    simp [enclose, hstop]
    omega
  have hwhole : text.extract start (stop + c.closer.length) = c.enclose key := by
    rw [List.extract_eq_take_drop, hb, ← List.drop_drop, happ, ← hb, List.append_assoc,
      List.drop_left, hlen, Nat.add_sub_cancel_left, List.take_left]
  rw [placeholderBetween, placeholderAt, ← hk, hwhole, hlen]

/-- The placeholders found by position are those among the pieces. -/
theorem placeholdersFrom_eq (text : Text) (position : ℕ) :
    c.placeholdersFrom text position =
      c.placeholdersAt position (c.pieces (text.drop position)) := by
  fun_induction c.placeholdersFrom text position with
  | case1 position hs =>
    rw [c.pieces_of_find?_none hs]
    simpa [placeholdersAt] using (c.placeholdersAt_chars position (text.drop position) []).symm
  | case2 position start hs he ih =>
    obtain ⟨before, hb, -, hp⟩ := c.exists_of_end?_none hs he
    rw [ih, hp, placeholdersAt_chars, ← hb, placeholdersAt]
  | case3 position start hs stop he ih =>
    obtain ⟨before, key, hb, hk, hstop, happ, hp⟩ := c.exists_of_end?_some hs he
    rw [ih, hp, placeholdersAt_chars, ← hb, placeholdersAt,
      c.placeholderBetween_eq hb hk hstop happ]
    congr 2
    simp [enclose, hstop]
    omega

theorem placeholders_eq (text : Text) :
    c.placeholders text = c.placeholdersAt 0 (c.pieces text) :=
  c.placeholdersFrom_eq text 0

/-! ### Openers that nothing closes -/

/-- Where strays stand among pieces, of which the first starts at `position`. -/
def straysAt (position : ℕ) : List Piece → List ℕ
  | [] => []
  | .char _ :: more => straysAt (position + 1) more
  | .stray :: more => position :: straysAt (position + c.opener.length) more
  | .hole key :: more => straysAt (position + (c.enclose key).length) more

lemma straysAt_chars (position : ℕ) (before : Text) (more : List Piece) :
    c.straysAt position (before.map .char ++ more) =
      c.straysAt (position + before.length) more := by
  induction before generalizing position with
  | nil => rfl
  | cons ch rest ih =>
    rw [List.map_cons, List.cons_append, straysAt, ih, List.length_cons]
    congr 1
    omega

lemma straysAt_eq_nil_iff {position : ℕ} {pieces : List Piece} :
    c.straysAt position pieces = [] ↔ .stray ∉ pieces := by
  induction pieces generalizing position with
  | nil => simp [straysAt]
  | cons piece more ih => cases piece <;> simp [straysAt, ih]

lemma straysAt_of_end?_some {text : Text} {position start stop : ℕ}
    (hs : Text.find? c.opener text position = some start) (he : c.end? text start = some stop) :
    c.straysAt position (c.pieces (text.drop position)) =
      c.straysAt (stop + c.closer.length) (c.pieces (text.drop (stop + c.closer.length))) := by
  obtain ⟨before, key, hb, -, hstop, -, hp⟩ := c.exists_of_end?_some hs he
  rw [hp, straysAt_chars, ← hb, straysAt]
  congr 1
  simp [enclose, hstop]
  omega

/-- The errors found by position are the strays among the pieces. -/
theorem unterminated_validateFrom (text : Text) (position : ℕ) :
    (c.validateFrom text position).unterminated =
      c.straysAt position (c.pieces (text.drop position)) := by
  fun_induction c.validateFrom text position with
  | case1 position hs =>
    rw [c.pieces_of_find?_none hs]
    simpa [straysAt] using (c.straysAt_chars position (text.drop position) []).symm
  | case2 position start hs he rest ih =>
    obtain ⟨before, hb, -, hp⟩ := c.exists_of_end?_none hs he
    rw [hp, straysAt_chars, ← hb, straysAt, ← ih]
  | case3 position start hs stop he rest _ ih => rw [c.straysAt_of_end?_some hs he, ← ih]
  | case4 position start hs stop he rest _ ih => rw [c.straysAt_of_end?_some hs he, ← ih]

theorem unterminated_validate (text : Text) :
    (c.validate text).unterminated = c.straysAt 0 (c.pieces text) :=
  c.unterminated_validateFrom text 0

/-! ### Replacing in place -/

/-- Pieces in a row, with every placeholder replaced. -/
def sweep {m : Type → Type} [Monad m] (fill : Text → m (Option Text)) : List Piece → m Text
  | [] => return []
  | .char ch :: more => (ch :: ·) <$> sweep fill more
  | .stray :: more => (c.opener ++ ·) <$> sweep fill more
  | .hole key :: more => do
    let value ← fill key
    (value.getD (c.enclose key) ++ ·) <$> sweep fill more

lemma sweep_eq_of_marks {c d : Config} (hopener : d.opener = c.opener)
    (hcloser : d.closer = c.closer) {m : Type → Type} [Monad m] (fill : Text → m (Option Text))
    (pieces : List Piece) :
    d.sweep fill pieces = c.sweep fill pieces := by
  have henclose (key : Text) : d.enclose key = c.enclose key := by
    rw [enclose, enclose, hopener, hcloser]
  induction pieces with
  | nil => rfl
  | cons piece more ih => cases piece <;> simp only [sweep, ih, hopener, henclose]

section Sweep

variable {m : Type → Type} [Monad m] [LawfulMonad m] (fill : Text → m (Option Text))

/-- What holds of each placeholder of a pass holds of the pass, if it goes over to composed
computations. -/
lemma sweep_closed {P : {α : Type} → m α → Prop} (hpure : ∀ {α : Type} (a : α), P (pure a))
    (hbind : ∀ {α β : Type} {x : m α} {f : α → m β}, P x → (∀ a, P (f a)) → P (x >>= f))
    {pieces : List Piece} (h : ∀ key, .hole key ∈ pieces → P (fill key)) :
    P (c.sweep fill pieces) := by
  have hmap {x : m Text} (hx : P x) (front : Text) : P ((front ++ ·) <$> x) := by
    rw [← bind_pure_comp]
    exact hbind hx fun _ => hpure _
  induction pieces with
  | nil => exact hpure _
  | cons piece more ih =>
    have hmore := ih fun key hk => h key (List.mem_cons_of_mem _ hk)
    cases piece with
    | char ch => exact hmap hmore [ch]
    | stray => exact hmap hmore c.opener
    | hole key => exact hbind (h key List.mem_cons_self) fun _ => hmap hmore _

lemma sweep_chars (before : Text) (more : List Piece) :
    c.sweep fill (before.map .char ++ more) = (before ++ ·) <$> c.sweep fill more := by
  induction before with
  | nil => simp
  | cons ch rest ih => simp [sweep, ih]

lemma sweep_only_chars (text : Text) : c.sweep fill (text.map .char) = pure text := by
  have := c.sweep_chars fill text []
  simpa [sweep] using this

lemma take_append_of_drop {text front rest : Text} {position : ℕ}
    (h : text.drop position = front ++ rest) :
    text.take (position + front.length) = text.take position ++ front := by
  rw [List.take_add, h, List.take_left]

/-- Replacing in place is one pass over the pieces that the text has at the start: the part in
front of the position is left alone, and what was put in is not read again. -/
theorem splice_eq_sweep (text : Text) (position : ℕ) (hle : position ≤ text.length) :
    c.splice fill text position =
      (text.take position ++ ·) <$> c.sweep fill (c.pieces (text.drop position)) := by
  fun_induction c.splice fill text position with
  | case1 text position hs =>
    rw [c.pieces_of_find?_none hs, sweep_only_chars]
    simp
  | case2 text position start hs he ih =>
    obtain ⟨before, hb, happ, hp⟩ := c.exists_of_end?_none hs he
    have hbound := Text.find?_bounds c.opener_ne hs
    have htake : text.take (start + c.opener.length) =
        text.take position ++ (before ++ c.opener) := by
      rw [← take_append_of_drop happ, List.length_append, hb, add_assoc]
    rw [ih (by omega), hp, sweep_chars, sweep, htake]
    simp
  | case3 text position start hs stop he ih1 ih2 =>
    obtain ⟨before, key, hb, hk, hstop, happ, hp⟩ := c.exists_of_end?_some hs he
    have hbound := c.end?_bounds he
    have htake : text.take start = text.take position ++ before := by
      rw [hb, take_append_of_drop (by rw [happ, List.append_assoc])]
    rw [hp, sweep_chars, sweep, ← hk]
    simp only [map_bind]
    refine bind_congr fun found => ?_
    cases found with
    | some value =>
      simp only
      -- the part in front has taken the value up, the part behind is as before
      have hfront : (text.take start ++ value).length = start + value.length := by
        rw [List.length_append, List.length_take, min_eq_left (by omega)]
      rw [ih1 value (by rw [List.length_append, hfront]; omega), ← hfront, List.take_left,
        List.drop_left, htake]
      simp
    | none =>
      have htake' : text.take (stop + c.closer.length) =
          text.take position ++ (before ++ c.enclose key) := by
        rw [← take_append_of_drop happ]
        simp [enclose, hstop, hb, add_assoc]
      simp only
      rw [ih2 (by omega), htake']
      simp

lemma splice_zero (text : Text) : c.splice fill text 0 = c.sweep fill (c.pieces text) := by
  rw [c.splice_eq_sweep fill text 0 (Nat.zero_le _)]
  simp

end Sweep

end ConfigText.Config
