import ConfigText.Proofs.Reach
import ConfigText.Proofs.Splicing
import ConfigText.Proofs.Tidy
import Mathlib

/-!
Placeholders that are left in place, and resolving what has been resolved.

A placeholder is left in place if there is no value for what its key expands to. Then it stays
wherever it stands, so resolving a result again can change it only at placeholders that were made
up of parts when values were put in. Where the text and the values are tidy there are none.
-/

namespace ConfigText.Config

variable {c : Config} {value : Text → Option Text} {text key : Text}

/-- There is no value for what the key expands to when it is opened in an outermost text. -/
def Lacks (c : Config) (value : Text → Option Text) (fuel : ℕ) (key : Text) : Prop :=
  ∃ name, (c.expandAt (.ofFunction value) fuel [key] 1 key).outcome = .done name ∧
    c.valueAt value name = none

lemma Lacks.mono {fuel fuel' : ℕ} (h : c.Lacks value fuel key) (hle : fuel ≤ fuel') :
    c.Lacks value fuel' key := by
  obtain ⟨name, hn, hv⟩ := h
  exact ⟨name, expandAt_done_mono hn hle, hv⟩

/-- What is left in place anywhere in a run lacks a value in an outermost text too, as there less
lies around it. -/
lemma lacks_of_keeps {fuel depth : ℕ} {path : List Text}
    (h : .keeps key ∈ (c.expandAt (.ofFunction value) fuel path depth text).trace) :
    c.lenient = true ∧ c.Lacks value fuel key := by
  induction fuel generalizing path depth text with
  | zero => cases h
  | succ fuel ih =>
    obtain h | ⟨k, -, -, h⟩ := enters_or_exists_of_mem_trace h
    · cases h
    obtain h | ⟨part, -, h⟩ := notes_or_goesOn_of_mem_trace h
    · cases h with
      | keeps hl hn hv =>
        have hsub : [key] ⊆ key :: path := by simp
        have hn' := expandAt_returnsAs hsub (Nat.le_add_left 1 depth) fuel key _ hn
        exact ⟨hl, Lacks.mono ⟨_, hn', hv⟩ (Nat.le_succ fuel)⟩
    · obtain ⟨hl, hlacks⟩ := ih h
      exact ⟨hl, hlacks.mono (Nat.le_succ fuel)⟩

lemma sweep_of_kept {fill : Text → Run (Option Text)} {pieces : List Piece}
    (h : ∀ key, .hole key ∈ pieces → (fill key).outcome = .done none) :
    (c.sweep fill pieces).outcome = .done (pieces.flatMap c.write) := by
  induction pieces with
  | nil => rfl
  | cons piece more ih =>
    have hmore := ih fun key hk => h key (List.mem_cons_of_mem _ hk)
    rw [List.flatMap_cons]
    cases piece with
    | char ch => exact Run.outcome_map_done.2 ⟨_, hmore, rfl⟩
    | stray => exact Run.outcome_map_done.2 ⟨_, hmore, rfl⟩
    | hole key =>
      exact Run.outcome_bind_done.2
        ⟨none, h key List.mem_cons_self, Run.outcome_map_done.2 ⟨_, hmore, rfl⟩⟩

/-- A text resolves to itself if all its placeholders have been left in place by some run. -/
lemma ends_self_of_keeps {run : Run Text} {result : Text}
    (hrun : c.Resolves (.ofFunction value) text run)
    (h : ∀ key, .hole key ∈ c.pieces result → .keeps key ∈ run.trace) :
    c.Ends (.ofFunction value) result (.done result) := by
  obtain ⟨-, bound, rfl⟩ := hrun
  simp only [resolveWithin_eq] at h
  have hfill : ∀ key, .hole key ∈ c.pieces result →
      (c.outermost (.ofFunction value) result bound key).outcome = .done none := by
    intro key hk
    obtain ⟨hl, name, hn, hv⟩ := lacks_of_keeps (h key hk)
    exact substitute_done.2 ⟨name, hn, .inr ⟨hv, hl, rfl⟩⟩
  refine ends_of_outcome (bound + 1) ?_ nofun
  rw [resolveWithin_succ, Run.outcome_note_bind, sweep_of_kept hfill, c.flatMap_write_pieces]

lemma exists_mem_placeholdersAt {position : ℕ} {pieces : List Piece} (h : .hole key ∈ pieces) :
    ∃ p ∈ c.placeholdersAt position pieces, p.key = key := by
  induction pieces generalizing position with
  | nil => cases h
  | cons piece more ih =>
    cases piece with
    | char ch => exact ih (by simpa using h)
    | stray => exact ih (by simpa using h)
    | hole k =>
      rcases List.mem_cons.1 h with h | h
      · exact ⟨_, List.mem_cons_self, (Piece.hole.inj h).symm⟩
      · exact (ih h).imp fun _ => And.imp_left (List.mem_cons_of_mem _)

/-! ### Tidy texts and values -/

/-- A tidy text in which all placeholders have been left in place. -/
def Settled (c : Config) (trace : List Event) (text : Text) : Prop :=
  c.Tidy text ∧ ∀ key, .hole key ∈ c.pieces text → .keeps key ∈ trace

lemma Settled.mono {trace trace' : List Event} (h : c.Settled trace text)
    (hsub : trace ⊆ trace') : c.Settled trace' text :=
  ⟨h.1, fun key hk => hsub (h.2 key hk)⟩

lemma settled_nil (trace : List Event) : c.Settled trace [] := ⟨.nil, by simp [pieces]⟩

lemma settled_char {ch : Char} (h : ch ∉ c.opener) (trace : List Event) :
    c.Settled trace [ch] := by
  refine ⟨.char h .nil, ?_⟩
  rw [pieces, if_neg (not_prefix_of_not_mem c.opener_ne h), pieces]
  simp

section Disjoint

variable (hdisjoint : ∀ ch ∈ c.opener, ch ∉ c.closer)
include hdisjoint

lemma Settled.append {trace : List Event} {more : Text} (h : c.Settled trace text)
    (hmore : c.Settled trace more) : c.Settled trace (text ++ more) := by
  refine ⟨h.1.append hmore.1, fun key hk => ?_⟩
  rw [h.1.pieces_append hdisjoint, List.mem_append] at hk
  exact hk.elim (h.2 key) (hmore.2 key)

lemma settled_of_sweep {fill : Text → Run (Option Text)} {result : Text} (h : c.Tidy text)
    (hfill : ∀ key found, c.closing 0 (key ++ c.closer) = some (key, []) → c.Tidy key →
      (fill key).trace ⊆ (c.sweep fill (c.pieces text)).trace →
      (fill key).outcome = .done found → c.Settled (fill key).trace (found.getD (c.enclose key)))
    (hdone : (c.sweep fill (c.pieces text)).outcome = .done result) :
    c.Settled (c.sweep fill (c.pieces text)).trace result := by
  induction h generalizing result with
  | nil =>
    obtain rfl : [] = result := by simpa [pieces, sweep] using hdone
    exact settled_nil _
  | @char ch rest hch _ ih =>
    rw [pieces, if_neg (not_prefix_of_not_mem c.opener_ne hch), sweep] at hfill hdone ⊢
    rw [Run.trace_map] at hfill ⊢
    obtain ⟨more, hmore, rfl⟩ := Run.outcome_map_done.1 hdone
    exact (settled_char hch _).append hdisjoint (ih hfill hmore)
  | @hole key rest hclosing hkey _ _ ih =>
    rw [pieces_enclose_append_of_closing hdisjoint hclosing, sweep] at hfill hdone ⊢
    obtain ⟨found, hf, hdone⟩ := Run.outcome_bind_done.1 hdone
    obtain ⟨more, hmore, rfl⟩ := Run.outcome_map_done.1 hdone
    rw [Run.bind_of_done hf, Run.trace_map] at hfill ⊢
    have hfront := List.subset_append_left (fill key).trace (c.sweep fill (c.pieces rest)).trace
    have hback := List.subset_append_right (fill key).trace (c.sweep fill (c.pieces rest)).trace
    have hrest :=
      ih (fun k found hc ht hsub => hfill k found hc ht (List.Subset.trans hsub hback)) hmore
    exact ((hfill key found hclosing hkey hfront hf).mono hfront).append hdisjoint
      (hrest.mono hback)

variable (hlast : ∀ ch ∈ (c.separator.getD []).getLast?, ch ∉ c.opener)
include hlast

/-- A default is tidy if the text is that it is cut out of. -/
lemma Tidy.default {name default : Text} (h : c.Tidy name)
    (hdefault : (c.split name).2 = some default) : c.Tidy default := by
  obtain ⟨front, mark, hsep, rfl⟩ := split_default_eq hdefault
  have hne : mark ≠ [] := by
    rintro rfl
    rw [split_of_no_separator (.inr hsep)] at hdefault
    cases hdefault
  refine h.of_append hdisjoint fun ch hch => hlast ch ?_
  rw [List.getLast?_append_of_ne_nil _ hne] at hch
  rwa [hsep]

/-- Where the text and the values that are found on the way are tidy, only placeholders that were
left in place stand in a result. -/
theorem settled_of_expandAt {fuel depth : ℕ} {path : List Text} {result : Text} (h : c.Tidy text)
    (hvalue : ∀ name new, .asks name ∈ (c.expandAt (.ofFunction value) fuel path depth text).trace →
      value name = some new → c.Tidy new)
    (hdone : (c.expandAt (.ofFunction value) fuel path depth text).outcome = .done result) :
    c.Settled (c.expandAt (.ofFunction value) fuel path depth text).trace result := by
  induction fuel generalizing path depth text result with
  | zero => cases hdone
  | succ fuel ih =>
    rcases c.expandAt_succ_cases (.ofFunction value) fuel path depth text with
      heq | ⟨limit, -, heq⟩
    swap
    · rw [heq] at hdone
      cases hdone
    rw [heq, Run.outcome_note_bind] at hdone
    rw [heq] at hvalue ⊢
    have hback := List.subset_append_right [.enters depth path text] (c.sweep (fun key => c.fillAt
      (.ofFunction value) (c.expandAt (.ofFunction value) fuel (key :: path) (depth + 1)) path text
        key) (c.pieces text)).trace
    refine (settled_of_sweep hdisjoint h (fun key found hclosing hkey hsub hf => ?_) hdone).mono
      hback
    rw [fillAt] at hf hsub ⊢
    split at hf
    · cases hf
    next hmem =>
    rw [if_neg hmem] at hsub ⊢
    have hasked {name new : Text} (hname : .asks name ∈ (c.substitute (.ofFunction value)
        (c.expandAt (.ofFunction value) fuel (key :: path) (depth + 1)) text key).trace) :
        value name = some new → c.Tidy new := hvalue name new (hback (hsub hname))
    have hpart {part : Text} (hgoes : c.GoesOn value
        (c.expandAt (.ofFunction value) fuel (key :: path) (depth + 1)) key part)
        (ht : c.Tidy part) {new : Text}
        (hnew : (c.expandAt (.ofFunction value) fuel (key :: path) (depth + 1) part).outcome
          = .done new) :
        c.Settled (c.expandAt (.ofFunction value) fuel (key :: path) (depth + 1) part).trace new :=
      ih ht (fun _ _ hname => hasked (hgoes.trace_subset hname)) hnew
    obtain ⟨name, hn, ⟨new, result, hv, hr, rfl⟩ | ⟨hv, hl, rfl⟩⟩ := substitute_done.1 hf
    · have hnew : c.Tidy new := by
        rcases valueAt_cases hv with ⟨other, hasks, hother⟩ | hdefault
        · exact hasked (mem_substitute_of_mem_valueOf hn hasks) hother
        · exact (hpart .key hkey hn).1.default hdisjoint hlast hdefault
      exact (hpart (.found hn hv) hnew hr).mono (GoesOn.found hn hv).trace_subset
    · refine ⟨?_, fun k hk => ?_⟩
      · simpa using Tidy.hole hclosing hkey .nil
      · obtain rfl : k = key := by simpa [c.pieces_enclose hclosing] using hk
        exact keeps_mem_substitute hl hn hv

/-- Where the text and the values are tidy, a result resolves to itself. -/
theorem ends_self_of_tidy {result : Text}
    (hvalue : ∀ name new, value name = some new → c.Tidy new) (h : c.Tidy text)
    (hends : c.Ends (.ofFunction value) text (.done result)) :
    c.Ends (.ofFunction value) result (.done result) := by
  obtain ⟨run, hrun, hdone⟩ := hends
  obtain ⟨-, bound, rfl⟩ := id hrun
  rw [resolveWithin_eq] at hdone
  refine ends_self_of_keeps hrun fun key hk => ?_
  rw [resolveWithin_eq]
  exact (settled_of_expandAt hdisjoint hlast h (fun name new _ => hvalue name new) hdone).2 key hk

end Disjoint

/-- A text resolves to itself if a run has left each of its placeholders in place. -/
lemma ends_self_of_forall_keeps {run : Run Text} {result : Text}
    (hrun : c.Resolves (.ofFunction value) text run)
    (h : ∀ p ∈ c.placeholders result, .keeps p.key ∈ run.trace) :
    c.Ends (.ofFunction value) result (.done result) := by
  refine ends_self_of_keeps hrun fun key hk => ?_
  obtain ⟨p, hp, rfl⟩ := exists_mem_placeholdersAt hk
  exact h p (placeholders_eq c result ▸ hp)

/-- **Resolving a result again.** A placeholder that a run has left in place resolves to itself. So
a result resolves to itself if all its placeholders have been left in place, which they have where
the text and the values are tidy: then none can be made up of parts. -/
theorem result_resolves_to_itself (c : Config) (value : Text → Option Text) {text : Text}
    {run : Run Text} {result : Text} (hrun : c.Resolves (.ofFunction value) text run)
    (hdone : run.outcome = .done result) :
    (∀ p ∈ c.placeholders result, .keeps p.key ∈ run.trace →
      c.Ends (.ofFunction value) p.whole (.done p.whole)) ∧
    ((∀ p ∈ c.placeholders result, .keeps p.key ∈ run.trace) →
      c.Ends (.ofFunction value) result (.done result)) ∧
    ((∀ ch ∈ c.opener, ch ∉ c.closer) →
      (∀ ch ∈ (c.separator.getD []).getLast?, ch ∉ c.opener) → c.Tidy text →
      (∀ name new, value name = some new → c.Tidy new) →
      c.Ends (.ofFunction value) result (.done result)) := by
  refine ⟨fun p hp hkept => ?_, ends_self_of_forall_keeps hrun,
    fun hdisjoint hlast htext hvalue =>
      ends_self_of_tidy hdisjoint hlast hvalue htext ⟨run, hrun, hdone⟩⟩
  refine ends_self_of_keeps hrun fun key hk => ?_
  rw [pieces_whole hp] at hk
  obtain rfl : key = p.key := by simpa using hk
  exact hkept

/-- The value of `a` refers to `u`, which has none. -/
def danglingValue (name : Text) : Option Text :=
  if name = ['a'] then some (braces.enclose ['u'] ++ ['x']) else none

lemma tidy_danglingValue {name new : Text} (h : danglingValue name = some new) :
    braces.Tidy new := by
  obtain ⟨-, rfl⟩ : name = ['a'] ∧ _ = new := by simpa [danglingValue] using h
  exact .reference (by decide) (.char (by decide) .nil)

/-- `${u}${a}` resolves to `${u}${u}x`, and that to itself. -/
theorem dangling_resolves_to_itself :
    braces.Ends (.ofFunction danglingValue) (braces.enclose ['u'] ++ braces.enclose ['a'])
      (.done (braces.enclose ['u'] ++ (braces.enclose ['u'] ++ ['x']))) ∧
    braces.Ends (.ofFunction danglingValue)
      (braces.enclose ['u'] ++ (braces.enclose ['u'] ++ ['x']))
      (.done (braces.enclose ['u'] ++ (braces.enclose ['u'] ++ ['x']))) := by
  have hends := ends_of_outcome 4 (by decide +kernel :
    (braces.resolveWithin (.ofFunction danglingValue) 4
      (braces.enclose ['u'] ++ braces.enclose ['a'])).outcome =
        .done (braces.enclose ['u'] ++ (braces.enclose ['u'] ++ ['x']))) nofun
  refine ⟨hends, ?_⟩
  obtain ⟨run, hrun, hdone⟩ := hends
  have htext : braces.Tidy (braces.enclose ['u'] ++ braces.enclose ['a']) :=
    .reference (by decide) (tidy_enclose_plain (by decide))
  exact (result_resolves_to_itself braces danglingValue hrun hdone).2.2 (by simp [braces])
    (by simp [braces]) htext fun _ _ => tidy_danglingValue

/-- The value of `a` is the beginning of an opener. -/
def seamValue (name : Text) : Option Text :=
  if name = ['a'] then some ['$'] else if name = ['b'] then some ['x'] else none

/-- `${a}{b}` resolves to `${b}`, which is made up of a value and of what stands behind it and does
not resolve to itself. -/
theorem seam_resolves_further :
    braces.lenient = true ∧
    braces.Ends (.ofFunction seamValue) (braces.enclose ['a'] ++ ['{', 'b', '}'])
      (.done (braces.enclose ['b'])) ∧
    ¬braces.Ends (.ofFunction seamValue) (braces.enclose ['b']) (.done (braces.enclose ['b'])) := by
  refine ⟨rfl, ends_of_outcome 4 (by decide +kernel) nofun, fun h => ?_⟩
  have hx : braces.Ends (.ofFunction seamValue) (braces.enclose ['b']) (.done ['x']) :=
    ends_of_outcome 4 (by decide +kernel) nofun
  cases h.unique hx

end ConfigText.Config
