import ConfigText.Proofs.CycleCheck
import ConfigText.Proofs.Nesting
import Mathlib

/-!
The texts that resolving goes on with.

A key is a part of the text it stands in, so new texts come only from defaults, which are cut out
of expanded keys. A key expands to one text at most, whatever is open around it, so it has one
default at most. If some character of the separator stands in no value, each default holds fewer
of that character than the text it comes from.
-/

namespace ConfigText.Config

variable {c : Config} {value : Text → Option Text} {text key name new : Text}

/-- Resolving the root may go on with the text. -/
inductive Reaches (c : Config) (value : Text → Option Text) (root : Text) : Text → Prop
  | refl : Reaches c value root root
  | step {text key part : Text} {fuel depth : ℕ} {path : List Text} :
      Reaches c value root text → .hole key ∈ c.pieces text →
      c.GoesOn value (c.expandAt (.ofFunction value) fuel path depth) key part →
      Reaches c value root part

/-- The keys in the texts that resolving the root may go on with. -/
def reachedKeys (c : Config) (value : Text → Option Text) (root : Text) : Set Text :=
  {key | ∃ text, c.Reaches value root text ∧ .hole key ∈ c.pieces text}

lemma pool_reaches (c : Config) (value : Text → Option Text) (root : Text) :
    c.Pool value {text | c.Reaches value root text} (c.reachedKeys value root) where
  hole h hk := ⟨_, h, hk⟩
  goesOn := fun ⟨_, h, hk⟩ hpart => h.step hk hpart

/-! ### Parts of texts -/

/-- The parts of the text and of the values. -/
def parts (value : Text → Option Text) (text : Text) : Set Text :=
  {part | part <:+: text ∨ ∃ name new, value name = some new ∧ part <:+: new}

lemma finite_infixes (text : Text) : {part | part <:+: text}.Finite :=
  (List.finite_toSet text.sublists).subset fun _ h => List.mem_sublists.2 h.sublist

lemma finite_parts (hfin : {new | ∃ name, value name = some new}.Finite) (text : Text) :
    (parts value text).Finite := by
  refine ((finite_infixes text).union (hfin.biUnion fun new _ => finite_infixes new)).subset ?_
  rintro part (h | ⟨name, new, hv, h⟩)
  · exact .inl h
  · exact .inr (Set.mem_biUnion ⟨name, hv⟩ h)

lemma infix_of_hole_mem (h : .hole key ∈ c.pieces text) : key <:+: text := by
  obtain ⟨front, behind, hpieces⟩ := List.append_of_mem h
  refine ⟨front.flatMap c.write ++ c.opener, c.closer ++ behind.flatMap c.write, ?_⟩
  conv_rhs => rw [← c.flatMap_write_pieces text, hpieces]
  simp [write, enclose]

lemma parts_of_hole_mem {part : Text} (h : part ∈ parts value text)
    (hk : .hole key ∈ c.pieces part) : key ∈ parts value text :=
  h.imp (infix_of_hole_mem hk).trans fun ⟨name, new, hv, hp⟩ =>
    ⟨name, new, hv, (infix_of_hole_mem hk).trans hp⟩

/-! ### Defaults -/

/-- A value is found for a name that is asked for, or it is a default. -/
lemma valueAt_cases (h : c.valueAt value name = some new) :
    (∃ asked, .asks asked ∈ (c.valueOf (.ofFunction value) name).trace ∧
      value asked = some new) ∨ (c.split name).2 = some new := by
  have hask (asked : Text) : (ask (.ofFunction value) asked).outcome = .done (value asked) ∧
      .asks asked ∈ (ask (.ofFunction value) asked).trace := ⟨rfl, List.mem_cons_self⟩
  rw [valueAt] at h
  cases hv : value name with
  | some found =>
    obtain rfl : found = new := by simpa [hv] using h
    exact .inl ⟨name, Run.mem_trace_bind.2 (.inl (hask name).2), hv⟩
  | none =>
    rcases hs : c.split name with ⟨front, _ | default⟩
    · simp [hv, hs] at h
    cases hf : value front with
    | some found =>
      obtain rfl : found = new := by simpa [hv, hs, hf] using h
      refine .inl ⟨front, Run.mem_trace_bind.2 (.inr ⟨none, hv ▸ (hask name).1, ?_⟩), hf⟩
      simp only [hs]
      exact Run.mem_trace_bind.2 (.inl (hask front).2)
    | none =>
      obtain rfl : default = new := by simpa [hv, hs, hf] using h
      exact .inr rfl

lemma split_of_no_separator (hsep : c.separator = none ∨ c.separator = some []) (key : Text) :
    c.split key = (key, none) := by
  rcases hsep with h | h <;> rw [split, h] <;> rfl

/-- What the key may expand to behind the first separator. -/
def defaultsOf (c : Config) (value : Text → Option Text) (key : Text) : Set Text :=
  {default | ∃ fuel path depth name,
    (c.expandAt (.ofFunction value) fuel path depth key).outcome = .done name ∧
      (c.split name).2 = some default}

/-- The defaults of the parts of the text and of the values. -/
def partDefaults (c : Config) (value : Text → Option Text) (text : Text) : Set Text :=
  ⋃ key ∈ parts value text, c.defaultsOf value key

/-- What is reached is a part, or is reached from a default of a part. -/
lemma Reaches.part_or_default {u : Text} (h : c.Reaches value text u) :
    u ∈ parts value text ∨ ∃ default ∈ c.partDefaults value text, c.Reaches value default u := by
  induction h with
  | refl => exact .inl (.inl List.infix_rfl)
  | step _ hk hpart ih =>
    rcases ih with hp | ⟨default, hd, hr⟩
    · have hkey := parts_of_hole_mem hp hk
      cases hpart with
      | key => exact .inl hkey
      | found hn hv =>
        rcases valueAt_cases hv with ⟨other, -, hv⟩ | hdefault
        · exact .inl (.inr ⟨other, _, hv, List.infix_rfl⟩)
        · exact .inr ⟨_, Set.mem_biUnion hkey ⟨_, _, _, _, hn, hdefault⟩, .refl⟩
    · exact .inr ⟨default, hd, hr.step hk hpart⟩

section Unlimited

variable (hmax : c.maxDepth = none)
include hmax

/-- A text resolves to one text at most, whatever is open around it. -/
lemma expandAt_done_unique {fuel fuel' depth depth' : ℕ} {path path' : List Text}
    {result result' : Text}
    (h : (c.expandAt (.ofFunction value) fuel path depth text).outcome = .done result)
    (h' : (c.expandAt (.ofFunction value) fuel' path' depth' text).outcome = .done result') :
    result = result' := by
  have hblind {fuel depth : ℕ} {path : List Text} {result : Text}
      (h : (c.expandAt (.ofFunction value) fuel path depth text).outcome = .done result) :
      (c.expandBlind (.ofFunction value) fuel 0 text).outcome = .done result := by
    obtain hb | ⟨key, hk⟩ := expandAt_agree c (.ofFunction value) fuel path depth text
    · rw [expandBlind_endsAs_depth hmax fuel depth 0 text (by simp [← hb, h]), ← hb, h]
    · simp [h] at hk
  have h := hblind h
  have h' := hblind h'
  rcases le_total fuel fuel' with hle | hle
  · rw [(expandBlind_continues hle 0 text).eq (by simp [h]), h'] at h
    exact (Outcome.done.inj h).symm
  · rw [(expandBlind_continues hle 0 text).eq (by simp [h']), h] at h'
    exact Outcome.done.inj h'

lemma subsingleton_defaultsOf (key : Text) : (c.defaultsOf value key).Subsingleton := by
  rintro default ⟨fuel, path, depth, name, hn, hd⟩ default' ⟨fuel', path', depth', name', hn', hd'⟩
  obtain rfl := expandAt_done_unique hmax hn hn'
  exact Option.some.inj (hd.symm.trans hd')

lemma finite_partDefaults (hfin : {new | ∃ name, value name = some new}.Finite) (text : Text) :
    (c.partDefaults value text).Finite :=
  (finite_parts hfin text).biUnion fun key _ => (subsingleton_defaultsOf hmax key).finite

end Unlimited

/-! ### A character that stands in no value -/

lemma split_default_eq {default : Text} (h : (c.split name).2 = some default) :
    ∃ front mark, c.separator = some mark ∧ name = front ++ mark ++ default := by
  unfold split splitDefault at h
  split at h
  · cases h
  · cases h
  · next mark _ hsep =>
    split at h
    · cases h
    · next hcut =>
      obtain rfl := Option.some.inj h
      exact ⟨_, mark, hsep, Text.cut_eq_append hcut⟩

lemma count_default_lt {ch : Char} {mark default : Text} (hsep : c.separator = some mark)
    (hch : ch ∈ mark) (h : (c.split name).2 = some default) :
    default.count ch < name.count ch := by
  obtain ⟨front, mark', hsep', rfl⟩ := split_default_eq h
  obtain rfl : mark = mark' := Option.some.inj (hsep.symm.trans hsep')
  have hpos := List.count_pos_iff.2 hch
  simp only [List.count_append]
  omega

lemma count_sweep_le {ch : Char} {fill : Text → Run (Option Text)} {pieces : List Piece}
    {result : Text}
    (hfill : ∀ key found, (fill key).outcome = .done found →
      (found.getD (c.enclose key)).count ch ≤ (c.enclose key).count ch)
    (h : (c.sweep fill pieces).outcome = .done result) :
    result.count ch ≤ (pieces.flatMap c.write).count ch := by
  induction pieces generalizing result with
  | nil =>
    obtain rfl : [] = result := by simpa [sweep] using h
    simp
  | cons piece more ih =>
    rw [List.flatMap_cons, List.count_append]
    cases piece with
    | char x =>
      obtain ⟨rest, hr, rfl⟩ := Run.outcome_map_done.1 h
      have := ih hr
      rw [← List.singleton_append, List.count_append, write]
      omega
    | stray =>
      obtain ⟨rest, hr, rfl⟩ := Run.outcome_map_done.1 h
      have := ih hr
      rw [List.count_append, write]
      omega
    | hole key =>
      obtain ⟨found, hf, h⟩ := Run.outcome_bind_done.1 h
      obtain ⟨rest, hr, rfl⟩ := Run.outcome_map_done.1 h
      have := ih hr
      have := hfill key found hf
      rw [List.count_append, write]
      omega

lemma count_key_lt {ch : Char} (hch : ch ∈ c.opener ∨ ch ∈ c.closer)
    (h : .hole key ∈ c.pieces text) : key.count ch < text.count ch := by
  have hpos : 0 < (c.opener ++ c.closer).count ch :=
    List.count_pos_iff.2 (List.mem_append.2 hch)
  obtain ⟨front, behind, hpieces⟩ := List.append_of_mem h
  rw [← c.flatMap_write_pieces text, hpieces]
  simp only [List.flatMap_append, List.flatMap_cons, write, enclose, List.count_append] at hpos ⊢
  omega

section Missing

variable {ch : Char} (hvalue : ∀ name new, value name = some new → ch ∉ new)
include hvalue

lemma count_new_le (h : c.valueAt value name = some new) : new.count ch ≤ name.count ch := by
  rcases valueAt_cases h with ⟨other, -, hv⟩ | hd
  · simp [List.count_eq_zero.2 (hvalue other new hv)]
  · obtain ⟨front, mark, -, rfl⟩ := split_default_eq hd
    simp only [List.count_append]
    omega

/-- Resolving brings no more of the character into a text. -/
lemma count_expandAt_le {fuel depth : ℕ} {path : List Text} {result : Text}
    (h : (c.expandAt (.ofFunction value) fuel path depth text).outcome = .done result) :
    result.count ch ≤ text.count ch := by
  induction fuel generalizing path depth text result with
  | zero => cases h
  | succ fuel ih =>
    rcases c.expandAt_succ_cases (.ofFunction value) fuel path depth text with
      heq | ⟨limit, -, heq⟩
    · rw [heq, Run.outcome_note_bind] at h
      rw [← c.flatMap_write_pieces text]
      refine count_sweep_le (fun key found hf => ?_) h
      rw [fillAt] at hf
      split at hf
      · cases hf
      · obtain ⟨name, hn, ⟨new, result, hv, hr, rfl⟩ | ⟨-, -, rfl⟩⟩ := substitute_done.1 hf
        · calc result.count ch ≤ new.count ch := ih hr
            _ ≤ name.count ch := count_new_le hvalue hv
            _ ≤ key.count ch := ih hn
            _ ≤ (c.enclose key).count ch := by simp [enclose]; omega
        · exact le_rfl
    · rw [heq] at h
      cases h

lemma count_goesOn_le {fuel depth : ℕ} {path : List Text} {part : Text}
    (h : c.GoesOn value (c.expandAt (.ofFunction value) fuel path depth) key part) :
    part.count ch ≤ key.count ch := by
  cases h with
  | key => exact le_rfl
  | found hn hv => exact (count_new_le hvalue hv).trans (count_expandAt_le hvalue hn)

/-- Where a character of the marks around a key stands in no value, the nesting goes down with that
character. -/
theorem expandAt_ne_exhausted (hch : ch ∈ c.opener ∨ ch ∈ c.closer) {fuel depth : ℕ}
    {path : List Text} (hfuel : text.count ch < fuel) :
    (c.expandAt (.ofFunction value) fuel path depth text).outcome ≠ .exhausted := by
  induction fuel generalizing path depth text with
  | zero => omega
  | succ fuel ih =>
    intro h
    obtain ⟨key, hm, -, -, part, hgoes, hpart, -⟩ := exists_of_expandAt_exhausted h
    have hkey := count_key_lt hch hm
    have hle := count_goesOn_le hvalue hgoes
    exact ih (by omega) hpart

lemma count_partDefault_lt {mark default : Text} (hsep : c.separator = some mark) (hch : ch ∈ mark)
    (h : default ∈ c.partDefaults value text) : default.count ch < text.count ch := by
  obtain ⟨key, hkey, fuel, path, depth, name, hn, hd⟩ := Set.mem_iUnion₂.1 h
  have hname := count_default_lt hsep hch hd
  have hexpand := count_expandAt_le hvalue hn
  rcases hkey with hkey | ⟨other, new, hv, hkey⟩
  · have := hkey.sublist.count_le ch
    omega
  · -- a part of a value holds none of the character, so it has no default
    have := hkey.sublist.count_le ch
    have := List.count_eq_zero.2 (hvalue other new hv)
    omega

/-- From a text and from finitely many values that miss a character of the separator only finitely
many keys can be reached. -/
theorem finite_reachedKeys {mark : Text} (hsep : c.separator = some mark) (hch : ch ∈ mark)
    (hmax : c.maxDepth = none) (hfin : {new | ∃ name, value name = some new}.Finite) (text : Text) :
    (c.reachedKeys value text).Finite := by
  -- the defaults of parts hold fewer of the character
  induction hn : text.count ch using Nat.strong_induction_on generalizing text with
  | _ n ih =>
  subst hn
  have hbelow : (⋃ default ∈ c.partDefaults value text, c.reachedKeys value default).Finite :=
    (finite_partDefaults hmax hfin text).biUnion fun default hd =>
      ih _ (count_partDefault_lt hvalue hsep hch hd) default rfl
  refine ((finite_parts hfin text).union hbelow).subset ?_
  rintro key ⟨u, hu, hk⟩
  rcases hu.part_or_default with hp | ⟨default, hd, hr⟩
  · exact .inl (parts_of_hole_mem hp hk)
  · exact .inr (Set.mem_biUnion hd ⟨u, hr, hk⟩)

end Missing

end ConfigText.Config
