import ConfigText.Proofs.Paths
import Mathlib

/-!
A text resolves as its placeholders do, each on its own.

The placeholders of a text are cut out and resolved one by one; what they resolve to is put where
they stood. The first one that fails makes the text fail for the same cause.
-/

namespace ConfigText

/-- The text from a position on, with new texts in the places of the placeholders. -/
def replaceSpans (text : Text) : ℕ → List (Placeholder × Text) → Text
  | position, [] => text.drop position
  | position, (p, new) :: more =>
    text.extract position p.start ++ new ++ replaceSpans text p.stop more

lemma replaceSpans_skip {text front rest : Text} {position : ℕ}
    {spans : List (Placeholder × Text)} (h : text.drop position = front ++ rest)
    (hs : ∀ span ∈ spans, position + front.length ≤ span.1.start) :
    replaceSpans text position spans =
      front ++ replaceSpans text (position + front.length) spans := by
  have hd : text.drop (position + front.length) = rest := by
    rw [← List.drop_drop, h, List.drop_left]
  cases spans with
  | nil => simp [replaceSpans, hd, h]
  | cons span more =>
    have hle := hs span (by simp)
    obtain ⟨k, hk⟩ := Nat.exists_eq_add_of_le hle
    simp only [replaceSpans, List.extract_eq_take_drop, hd, h, hk]
    rw [show position + front.length + k - position = front.length + k by omega,
      Nat.add_sub_cancel_left, List.take_length_add_append]
    simp

namespace Config

variable (c : Config) (lookup : Lookup)

/-- Resolving the text gives a text, and asks for these names on the way. -/
def Returns (text result : Text) (names : List Text) : Prop :=
  ∃ run, c.Resolves lookup text run ∧ run.outcome = .done result ∧ run.asked = names

def Fails (text : Text) (failure : Failure) : Prop := c.Ends lookup text (.failed failure)

variable {c lookup}

lemma le_start_of_mem_placeholdersAt {position : ℕ} {pieces : List Piece} {p : Placeholder}
    (h : p ∈ c.placeholdersAt position pieces) : position ≤ p.start := by
  induction pieces generalizing position with
  | nil => cases h
  | cons piece more ih =>
    cases piece with
    | char ch => have := ih h; omega
    | stray => have := ih h; omega
    | hole key =>
      rcases List.mem_cons.1 h with rfl | h
      · exact le_rfl
      · have := ih h; omega

/-! ### One pass with more and more nesting allowed -/

section Family

/-- With enough nesting allowed the placeholder is replaced by the first part, and the names of the
second part are asked for. -/
def Fills (c : Config) (fill : ℕ → Text → Run (Option Text)) (key : Text)
    (part : Text × List Text) : Prop :=
  ∃ n value, (fill n key).outcome = .done value ∧ value.getD (c.enclose key) = part.1 ∧
    (fill n key).asked = part.2

/-- One pass over the pieces returns, with enough nesting allowed. -/
def SweepReturns (c : Config) (fill : ℕ → Text → Run (Option Text)) (pieces : List Piece)
    (result : Text) (names : List Text) : Prop :=
  ∃ n, (c.sweep (fill n) pieces).outcome = .done result ∧ (c.sweep (fill n) pieces).asked = names

/-- What is put in the places of the placeholders among the pieces of a text, from a position
on. -/
def SpansReturn (c : Config) (fill : ℕ → Text → Run (Option Text)) (text : Text) (position : ℕ)
    (spans : List Placeholder) (result : Text) (names : List Text) : Prop :=
  ∃ parts : List (Text × List Text),
    List.Forall₂ (fun p part => c.Fills fill p.key part) spans parts ∧
      result = replaceSpans text position (spans.zip (parts.map Prod.fst)) ∧
      names = parts.flatMap Prod.snd

variable {fill : ℕ → Text → Run (Option Text)} {text front : Text} {position : ℕ}
  {more : List Piece} {result : Text} {names : List Text} {failure : Failure}

lemma spansReturn_front (h : text.drop position = front ++ more.flatMap c.write) :
    c.SpansReturn fill text position (c.placeholdersAt (position + front.length) more) result
        names ↔
      ∃ rest, result = front ++ rest ∧
        c.SpansReturn fill text (position + front.length)
          (c.placeholdersAt (position + front.length) more) rest names := by
  have hskip (news : List Text) :
      replaceSpans text position ((c.placeholdersAt (position + front.length) more).zip news) = _ :=
    replaceSpans_skip h fun span hs => le_start_of_mem_placeholdersAt (List.of_mem_zip hs).1
  constructor
  · rintro ⟨parts, hf, rfl, rfl⟩
    exact ⟨_, hskip _, parts, hf, rfl, rfl⟩
  · rintro ⟨_, rfl, parts, hf, rfl, rfl⟩
    exact ⟨parts, hf, (hskip _).symm, rfl⟩

lemma sweepReturns_map (front : Text) :
    (∃ n, ((front ++ ·) <$> c.sweep (fill n) more).outcome = .done result ∧
        ((front ++ ·) <$> c.sweep (fill n) more).asked = names) ↔
      ∃ rest, result = front ++ rest ∧ c.SweepReturns fill more rest names := by
  simp only [Run.outcome_map_done, Run.asked_map]
  constructor
  · rintro ⟨n, ⟨rest, ho, rfl⟩, ha⟩
    exact ⟨rest, rfl, n, ho, ha⟩
  · rintro ⟨rest, rfl, n, ho, ha⟩
    exact ⟨n, ⟨rest, ho, rfl⟩, ha⟩

variable (hmono : ∀ {n m : ℕ} (key : Text), n ≤ m → (fill n key).Continues (fill m key))
include hmono

lemma sweepReturns_hole {key : Text} :
    c.SweepReturns fill (.hole key :: more) result names ↔
      ∃ part rest names', c.Fills fill key part ∧ c.SweepReturns fill more rest names' ∧
        result = part.1 ++ rest ∧ names = part.2 ++ names' := by
  constructor
  · rintro ⟨n, ho, rfl⟩
    rw [sweep] at ho ⊢
    obtain ⟨value, hv, ho⟩ := Run.outcome_bind_done.1 ho
    obtain ⟨rest, hr, rfl⟩ := Run.outcome_map_done.1 ho
    refine ⟨(value.getD (c.enclose key), (fill n key).asked), rest, _, ⟨n, value, hv, rfl, rfl⟩,
      ⟨n, hr, rfl⟩, rfl, ?_⟩
    rw [Run.asked_bind_of_done hv, Run.asked_map]
  · rintro ⟨⟨new, asked⟩, rest, names', ⟨n, value, hv, rfl, rfl⟩, ⟨m, hr, rfl⟩, rfl, rfl⟩
    -- both parts end where the larger of the two bounds is allowed
    have hfill := (hmono key (le_max_left n m)).eq (by simp [hv])
    have hsweep := (sweep_rel Run.continues (c := c) (fun key => hmono key (le_max_right n m))
      more).eq (by simp [hr])
    rw [hfill] at hv ⊢
    rw [hsweep] at hr ⊢
    refine ⟨max n m, ?_, ?_⟩
    · exact Run.outcome_bind_done.2 ⟨value, hv, Run.outcome_map_done.2 ⟨rest, hr, rfl⟩⟩
    · rw [sweep, Run.asked_bind_of_done hv, Run.asked_map]

lemma sweepReturns_iff {pieces : List Piece} (h : text.drop position = pieces.flatMap c.write) :
    c.SweepReturns fill pieces result names ↔
      c.SpansReturn fill text position (c.placeholdersAt position pieces) result names := by
  induction pieces generalizing position result names with
  | nil =>
    have hd : text.drop position = [] := h
    simp [SweepReturns, SpansReturn, sweep, placeholdersAt, replaceSpans, hd, eq_comm, Run.asked]
  | cons piece more ih =>
    rw [List.flatMap_cons] at h
    have hrest : text.drop (position + (c.write piece).length) = more.flatMap c.write := by
      rw [← List.drop_drop, h, List.drop_left]
    cases piece with
    | char ch =>
      refine (sweepReturns_map [ch]).trans ?_
      simp only [ih hrest]
      exact (spansReturn_front h).symm
    | stray =>
      refine (sweepReturns_map c.opener).trans ?_
      simp only [ih hrest]
      exact (spansReturn_front h).symm
    | hole key =>
      rw [sweepReturns_hole hmono, placeholdersAt]
      simp only [ih hrest]
      constructor
      · rintro ⟨part, rest, names', hp, ⟨parts, hf, rfl, rfl⟩, rfl, rfl⟩
        exact ⟨part :: parts, .cons hp hf, by simp [replaceSpans, placeholderAt, write], by simp⟩
      · rintro ⟨parts, hf, rfl, rfl⟩
        rw [List.forall₂_cons_left_iff] at hf
        obtain ⟨part, parts, hp, hf, rfl⟩ := hf
        exact ⟨part, _, _, hp, ⟨parts, hf, rfl, rfl⟩,
          by simp [replaceSpans, placeholderAt, write], by simp⟩

/-- The pass fails exactly where its first placeholder that does not return fails. -/
lemma sweepFails_iff {pieces : List Piece} :
    (∃ n, (c.sweep (fill n) pieces).outcome = .failed failure) ↔
      ∃ before p after, c.placeholdersAt position pieces = before ++ p :: after ∧
        (∀ q ∈ before, ∃ part, c.Fills fill q.key part) ∧
        ∃ n, (fill n p.key).outcome = .failed failure := by
  induction pieces generalizing position with
  | nil => simp [sweep, placeholdersAt]
  | cons piece more ih =>
    cases piece with
    | char ch =>
      simp only [sweep, Run.outcome_map_failed, placeholdersAt]
      exact ih
    | stray =>
      simp only [sweep, Run.outcome_map_failed, placeholdersAt]
      exact ih
    | hole key =>
      simp only [sweep, Run.outcome_bind_failed, Run.outcome_map_failed, placeholdersAt]
      constructor
      · rintro ⟨n, hn | ⟨value, hv, hn⟩⟩
        · exact ⟨[], _, _, rfl, by simp, n, hn⟩
        · obtain ⟨before, p, after, hs, hb, hp⟩ :=
            (@ih (position + (c.enclose key).length)).1 ⟨n, hn⟩
          refine ⟨_ :: before, p, after, by rw [hs]; rfl, ?_, hp⟩
          exact List.forall_mem_cons.2 ⟨⟨(_, _), n, value, hv, rfl, rfl⟩, hb⟩
      · rintro ⟨before, p, after, hs, hb, hp⟩
        cases before with
        | nil =>
          obtain ⟨rfl, -⟩ := List.cons.inj hs
          exact hp.imp fun n hn => .inl hn
        | cons q before =>
          obtain ⟨rfl, hs'⟩ := List.cons.inj hs
          obtain ⟨⟨part, n, value, hv, -⟩, hb⟩ := List.forall_mem_cons.1 hb
          obtain ⟨m, hm⟩ := ih.2 ⟨before, p, after, hs', hb, hp⟩
          change (fill n key).outcome = .done value at hv
          have hfill := (hmono key (le_max_left n m)).eq (by simp [hv])
          have hsweep := (sweep_rel Run.continues (c := c) (fun key => hmono key (le_max_right n m))
            more).eq (by simp [hm])
          exact ⟨max n m, .inr ⟨value, hfill ▸ hv, hsweep ▸ hm⟩⟩

end Family

/-! ### The outermost text -/

variable {text : Text} {result : Text} {names : List Text}

variable (c lookup) in
/-- What a placeholder of the outermost text is replaced by. -/
def outermost (text : Text) (fuel : ℕ) (key : Text) : Run (Option Text) :=
  c.substitute lookup (c.expandAt lookup fuel [key] 1) text key

lemma outermost_continues (text : Text) {n m : ℕ} (key : Text) (h : n ≤ m) :
    (c.outermost lookup text n key).Continues (c.outermost lookup text m key) :=
  substitute_rel Run.continues (expandAt_continues h [key] 1) text key

lemma resolveWithin_succ (fuel : ℕ) :
    c.resolveWithin lookup (fuel + 1) text =
      Run.note (.enters 0 [] text) >>= fun _ =>
        c.sweep (c.outermost lookup text fuel) (c.pieces text) := by
  have h0 : c.tooDeep 0 = none := by simp [tooDeep]
  rw [resolveWithin_eq, expandAt_succ h0]
  simp only [fillAt, List.not_mem_nil, if_false]
  rfl

lemma returns_iff :
    c.Returns lookup text result names ↔
      c.SweepReturns (c.outermost lookup text) (c.pieces text) result names := by
  constructor
  · rintro ⟨run, ⟨hne, bound, rfl⟩, ho, rfl⟩
    cases bound with
    | zero => cases ho
    | succ n =>
      rw [resolveWithin_succ] at ho ⊢
      obtain ⟨_, -, ho⟩ := Run.outcome_bind_done.1 ho
      exact ⟨n, ho, by rw [Run.asked_bind_of_done rfl]; rfl⟩
  · rintro ⟨n, ho, rfl⟩
    have ho' : (c.resolveWithin lookup (n + 1) text).outcome = .done result := by
      rw [resolveWithin_succ]
      exact Run.outcome_bind_done.2 ⟨(), rfl, ho⟩
    refine ⟨_, resolves_of_ne _ (by simp [ho']), ho', ?_⟩
    rw [resolveWithin_succ, Run.asked_bind_of_done rfl]
    rfl

lemma fails_iff {failure : Failure} :
    c.Fails lookup text failure ↔
      ∃ n, (c.sweep (c.outermost lookup text n) (c.pieces text)).outcome = .failed failure := by
  constructor
  · rintro ⟨run, ⟨hne, bound, rfl⟩, ho⟩
    cases bound with
    | zero => cases ho
    | succ n =>
      rw [resolveWithin_succ, Run.outcome_bind_failed] at ho
      obtain ho | ⟨_, -, ho⟩ := ho
      · cases ho
      · exact ⟨n, ho⟩
  · rintro ⟨n, ho⟩
    have ho' : (c.resolveWithin lookup (n + 1) text).outcome = .failed failure := by
      rw [resolveWithin_succ]
      exact Run.outcome_bind_failed.2 (.inr ⟨(), rfl, ho⟩)
    exact ⟨_, resolves_of_ne _ (by simp [ho']), ho'⟩

/-! ### A placeholder in two texts -/

lemma fills_text {key : Text} {part : Text × List Text} (text' : Text)
    (h : c.Fills (c.outermost lookup text) key part) :
    c.Fills (c.outermost lookup text') key part := by
  obtain ⟨n, value, hv, hp, ha⟩ := h
  have halike : (c.outermost lookup text n key).Alike (c.outermost lookup text' n key) :=
    substitute_alike _ text text' key
  exact ⟨n, value, halike.done hv, hp, by rw [← ha, Run.asked, ← halike.1]; rfl⟩

lemma exists_eq_of_mem_placeholdersAt {position : ℕ} {pieces : List Piece} {p : Placeholder}
    (h : p ∈ c.placeholdersAt position pieces) :
    ∃ start key, p = c.placeholderAt start key ∧ .hole key ∈ pieces := by
  induction pieces generalizing position with
  | nil => cases h
  | cons piece more ih =>
    have hrest {start : ℕ} (h : p ∈ c.placeholdersAt start more) :
        ∃ start key, p = c.placeholderAt start key ∧ .hole key ∈ piece :: more := by
      obtain ⟨start, key, hp, hm⟩ := ih h
      exact ⟨start, key, hp, List.mem_cons_of_mem _ hm⟩
    cases piece with
    | char ch => exact hrest h
    | stray => exact hrest h
    | hole key =>
      rcases List.mem_cons.1 h with hp | h
      · exact ⟨position, key, hp, List.mem_cons_self⟩
      · exact hrest h

lemma eq_of_mem_placeholdersAt {position : ℕ} {pieces : List Piece} {p : Placeholder}
    (h : p ∈ c.placeholdersAt position pieces) :
    p.whole = c.enclose p.key ∧ .hole p.key ∈ pieces := by
  obtain ⟨start, key, rfl, hm⟩ := exists_eq_of_mem_placeholdersAt h
  exact ⟨rfl, hm⟩

lemma default_eq_of_mem_placeholders {p : Placeholder} (h : p ∈ c.placeholders text) :
    p.default = (c.split p.key).2 := by
  rw [placeholders_eq] at h
  obtain ⟨start, key, rfl, -⟩ := exists_eq_of_mem_placeholdersAt h
  rfl

variable {p : Placeholder}

lemma pieces_whole (hp : p ∈ c.placeholders text) : c.pieces p.whole = [.hole p.key] := by
  rw [placeholders_eq] at hp
  obtain ⟨hw, hm⟩ := eq_of_mem_placeholdersAt hp
  rw [hw, c.pieces_enclose (c.closing_of_hole_mem hm)]

/-- A key that is one placeholder between its marks ends where that placeholder does. -/
lemma closing_of_placeholders_enclose {key : Text}
    (h : ∃ p, c.placeholders (c.enclose key) = [p] ∧ p.key = key) :
    c.closing 0 (key ++ c.closer) = some (key, []) := by
  obtain ⟨p, hp, rfl⟩ := h
  have hmem : p ∈ c.placeholders (c.enclose p.key) := hp ▸ List.mem_singleton_self p
  rw [placeholders_eq] at hmem
  exact c.closing_of_hole_mem (eq_of_mem_placeholdersAt hmem).2

lemma returns_whole_iff (hp : p ∈ c.placeholders text) {part : Text × List Text} :
    c.Returns lookup p.whole part.1 part.2 ↔ c.Fills (c.outermost lookup text) p.key part := by
  rw [returns_iff, pieces_whole hp, sweepReturns_hole (outermost_continues _)]
  constructor
  · rintro ⟨⟨new, asked⟩, _, _, hf, ⟨n, hd, rfl⟩, hn, ha⟩
    obtain rfl : _ = [] := (Outcome.done.inj hd).symm
    obtain rfl : part = (new, asked) :=
      Prod.ext (by simpa using hn) (by simpa [sweep, Run.asked] using ha)
    exact fills_text _ hf
  · intro hf
    exact ⟨part, [], [], fills_text _ hf, ⟨0, rfl, rfl⟩, by simp, by simp⟩

lemma forall₂_returns_whole_iff (parts : List (Text × List Text)) :
    List.Forall₂ (fun p part => c.Returns lookup p.whole part.1 part.2) (c.placeholders text)
        parts ↔
      List.Forall₂ (fun p part => c.Fills (c.outermost lookup text) p.key part)
        (c.placeholders text) parts := by
  have hmem {R : Placeholder → Text × List Text → Prop}
      (h : List.Forall₂ R (c.placeholders text) parts) :=
    (List.forall₂_and_left (c.placeholders text) parts).2 ⟨fun p (hp : p ∈ _) => hp, h⟩
  exact ⟨fun h => (hmem h).imp fun _ _ ⟨hp, hr⟩ => (returns_whole_iff hp).1 hr,
    fun h => (hmem h).imp fun _ _ ⟨hp, hf⟩ => (returns_whole_iff hp).2 hf⟩

lemma fails_whole_iff (hp : p ∈ c.placeholders text) {cause : Cause} :
    (∃ failure, c.Fails lookup p.whole failure ∧ failure.cause = cause) ↔
      ∃ n failure, (c.outermost lookup text n p.key).outcome = .failed failure ∧
        failure.cause = cause := by
  simp only [fails_iff, pieces_whole hp, sweep, Run.outcome_bind_failed, Run.outcome_map_failed]
  constructor
  · rintro ⟨failure, ⟨n, hn | ⟨_, -, hn⟩⟩, rfl⟩
    · obtain ⟨e, he, hc⟩ := (substitute_alike _ _ text _).failed hn
      exact ⟨n, e, he, hc⟩
    · cases hn
  · rintro ⟨n, failure, hn, rfl⟩
    obtain ⟨e, he, hc⟩ := (substitute_alike _ _ p.whole _).failed hn
    exact ⟨e, ⟨n, .inl he⟩, hc⟩

/-- **Placeholders resolve on their own.** A text returns exactly if each of its placeholders
does when cut out and resolved alone; what they give then stands in their places, all else is
kept, and they ask for their names one after the other. A text fails exactly if one of its
placeholders does after all before it have returned, and for the same cause. A text without
placeholders is kept and asks for nothing. -/
theorem resolves_iff_placeholders (c : Config) (lookup : Lookup) (text : Text) :
    (∀ result names, c.Returns lookup text result names ↔
      ∃ parts : List (Text × List Text),
        List.Forall₂ (fun p part => c.Returns lookup p.whole part.1 part.2)
          (c.placeholders text) parts ∧
        result = replaceSpans text 0 ((c.placeholders text).zip (parts.map Prod.fst)) ∧
        names = parts.flatMap Prod.snd) ∧
    (∀ cause, (∃ failure, c.Fails lookup text failure ∧ failure.cause = cause) ↔
      ∃ before p after, c.placeholders text = before ++ p :: after ∧
        (∀ q ∈ before, ∃ result names, c.Returns lookup q.whole result names) ∧
        ∃ failure, c.Fails lookup p.whole failure ∧ failure.cause = cause) ∧
    (c.placeholders text = [] → c.Returns lookup text text []) := by
  have hmono {n m : ℕ} (key : Text) : n ≤ m →
      (c.outermost lookup text n key).Continues (c.outermost lookup text m key) :=
    outermost_continues text key
  have hwhole : text.drop 0 = (c.pieces text).flatMap c.write := (c.flatMap_write_pieces text).symm
  have hreturns (result : Text) (names : List Text) :
      c.Returns lookup text result names ↔ c.SpansReturn (c.outermost lookup text) text 0
        (c.placeholders text) result names := by
    rw [returns_iff, sweepReturns_iff hmono hwhole, placeholders_eq]
  refine ⟨fun result names => ?_, fun cause => ?_, fun h => ?_⟩
  · simp only [hreturns, SpansReturn, forall₂_returns_whole_iff]
  · have hfails (failure : Failure) :
        c.Fails lookup text failure ↔ ∃ before p after, c.placeholders text = before ++ p :: after ∧
          (∀ q ∈ before, ∃ part, c.Fills (c.outermost lookup text) q.key part) ∧
          ∃ n, (c.outermost lookup text n p.key).outcome = .failed failure := by
      rw [fails_iff, sweepFails_iff hmono, placeholders_eq]
    constructor
    · rintro ⟨failure, hf, rfl⟩
      obtain ⟨before, p, after, hs, hb, n, hn⟩ := (hfails failure).1 hf
      have hp : p ∈ c.placeholders text := by simp [hs]
      refine ⟨before, p, after, hs, fun q hq => ?_,
        (fails_whole_iff hp).2 ⟨n, failure, hn, rfl⟩⟩
      obtain ⟨part, hq'⟩ := hb q hq
      exact ⟨part.1, part.2, (returns_whole_iff (by simp [hs, hq])).2 hq'⟩
    · rintro ⟨before, p, after, hs, hb, hp⟩
      have hmem : p ∈ c.placeholders text := by simp [hs]
      obtain ⟨n, failure, hn, rfl⟩ := (fails_whole_iff hmem).1 hp
      refine ⟨failure, (hfails failure).2 ⟨before, p, after, hs, fun q hq => ?_, n, hn⟩, rfl⟩
      obtain ⟨result, names, hr⟩ := hb q hq
      exact ⟨(result, names), (returns_whole_iff (by simp [hs, hq])).1 hr⟩
  · exact (hreturns _ _).2 ⟨[], by simp [h], by simp [h, replaceSpans], rfl⟩

end Config
end ConfigText
