import ConfigText.Proofs.Paths
import Mathlib

/-!
How deep a run nests.

A run that is cut off has as many keys open at that moment as it was allowed to nest, and all of
them are different. So a run that opens only keys of a finite set ends.
-/

namespace ConfigText.Config

variable {c : Config} {value : Text → Option Text} {expand : Text → Run Text} {text key : Text}

/-! ### Steps of a part are steps of the whole -/

lemma opens_mem_substitute :
    .opens key ∈ (c.substitute (.ofFunction value) expand text key).trace :=
  Run.mem_trace_bind.2 (.inl List.mem_cons_self)

lemma keeps_mem_substitute {name : Text} (hl : c.lenient = true)
    (hn : (expand key).outcome = .done name) (hv : c.valueAt value name = none) :
    .keeps key ∈ (c.substitute (.ofFunction value) expand text key).trace := by
  refine Run.mem_trace_bind.2 (.inr ⟨(), rfl, Run.mem_trace_bind.2 (.inr ⟨name, hn, ?_⟩)⟩)
  refine Run.mem_trace_bind.2 (.inr ⟨none, by rw [valueOf_outcome, hv], ?_⟩)
  rw [if_pos hl]
  exact Run.mem_trace_bind.2 (.inl List.mem_cons_self)

lemma mem_substitute_of_mem_valueOf {name : Text} {event : Event}
    (hn : (expand key).outcome = .done name)
    (h : event ∈ (c.valueOf (.ofFunction value) name).trace) :
    event ∈ (c.substitute (.ofFunction value) expand text key).trace := by
  refine Run.mem_trace_bind.2 (.inr ⟨(), rfl, Run.mem_trace_bind.2 (.inr ⟨name, hn, ?_⟩)⟩)
  exact Run.mem_trace_bind.2 (.inl h)

lemma GoesOn.trace_subset {part : Text} (h : c.GoesOn value expand key part) :
    (expand part).trace ⊆ (c.substitute (.ofFunction value) expand text key).trace := by
  intro e he
  refine Run.mem_trace_bind.2 (.inr ⟨(), rfl, Run.mem_trace_bind.2 ?_⟩)
  cases h with
  | key => exact .inl he
  | found hn hv =>
    refine .inr ⟨_, hn, Run.mem_trace_bind.2 (.inr ⟨_, by rw [valueOf_outcome, hv], ?_⟩)⟩
    exact Run.mem_trace_bind.2 (.inl he)

/-- A pass that is cut off is cut off at one of its placeholders. -/
lemma exists_of_sweep_exhausted {fill : Text → Run (Option Text)} {pieces : List Piece}
    (h : (c.sweep fill pieces).outcome = .exhausted) :
    ∃ key, .hole key ∈ pieces ∧ (fill key).outcome = .exhausted ∧
      (fill key).trace ⊆ (c.sweep fill pieces).trace := by
  induction pieces with
  | nil => cases h
  | cons piece more ih =>
    cases piece with
    | char ch => simpa [sweep] using ih (by simpa [sweep] using h)
    | stray => simpa [sweep] using ih (by simpa [sweep] using h)
    | hole key =>
      rw [sweep, Run.outcome_bind_exhausted] at h
      rw [sweep]
      obtain h | ⟨found, hf, h⟩ := h
      · exact ⟨key, List.mem_cons_self, h, fun e he => Run.mem_trace_bind.2 (.inl he)⟩
      · obtain ⟨k, hm, hk, hsub⟩ := ih (by simpa using h)
        exact ⟨k, List.mem_cons_of_mem _ hm, hk,
          fun e he => Run.mem_trace_bind.2 (.inr ⟨found, hf, by simpa using hsub he⟩)⟩

/-- A run that is cut off is cut off below a key that was not open. -/
lemma exists_of_expandAt_exhausted {fuel depth : ℕ} {path : List Text}
    (h : (c.expandAt (.ofFunction value) (fuel + 1) path depth text).outcome = .exhausted) :
    ∃ key, .hole key ∈ c.pieces text ∧ key ∉ path ∧
      .opens key ∈ (c.expandAt (.ofFunction value) (fuel + 1) path depth text).trace ∧
      ∃ part, c.GoesOn value (c.expandAt (.ofFunction value) fuel (key :: path) (depth + 1)) key
          part ∧
        (c.expandAt (.ofFunction value) fuel (key :: path) (depth + 1) part).outcome
          = .exhausted ∧
        (c.expandAt (.ofFunction value) fuel (key :: path) (depth + 1) part).trace ⊆
          (c.expandAt (.ofFunction value) (fuel + 1) path depth text).trace := by
  rcases c.expandAt_succ_cases (.ofFunction value) fuel path depth text with heq | ⟨limit, -, heq⟩
  · rw [heq] at h ⊢
    obtain ⟨key, hm, hk, hsub⟩ := exists_of_sweep_exhausted h
    rw [fillAt] at hk hsub
    split at hk
    case isTrue => cases hk
    next hmem =>
    rw [if_neg hmem] at hsub
    have hwhole {e : Event} (he : e ∈ (c.substitute (.ofFunction value)
        (c.expandAt (.ofFunction value) fuel (key :: path) (depth + 1)) text key).trace) :
        e ∈ (Run.note (.enters depth path text) >>= fun _ => c.sweep (fun key =>
          c.fillAt (.ofFunction value)
            (c.expandAt (.ofFunction value) fuel (key :: path) (depth + 1)) path text key)
          (c.pieces text)).trace :=
      Run.mem_trace_bind.2 (.inr ⟨(), rfl, hsub he⟩)
    obtain ⟨part, hgoes, hpart⟩ := substitute_exhausted.1 hk
    exact ⟨key, hm, hmem, hwhole opens_mem_substitute, part, hgoes, hpart,
      fun e he => hwhole (hgoes.trace_subset he)⟩
  · rw [heq] at h
    cases h

/-- A run that is cut off has opened one key for each level it was allowed to nest, and they are
all different. -/
theorem exists_open_of_exhausted {fuel : ℕ} {path : List Text} {depth : ℕ}
    (h : (c.expandAt (.ofFunction value) fuel path depth text).outcome = .exhausted) :
    ∃ keys : List Text, keys.length = fuel ∧ (path.Nodup → (keys ++ path).Nodup) ∧
      ∀ key ∈ keys, .opens key ∈ (c.expandAt (.ofFunction value) fuel path depth text).trace := by
  induction fuel generalizing path depth text with
  | zero => exact ⟨[], rfl, id, by simp⟩
  | succ fuel ih =>
    obtain ⟨key, -, hmem, hkey, part, -, hpart, htrace⟩ := exists_of_expandAt_exhausted h
    obtain ⟨keys, hlen, hnodup, hopen⟩ := ih hpart
    refine ⟨keys ++ [key], by simp [hlen], fun hp => ?_, fun k hk => ?_⟩
    · simpa using hnodup (List.nodup_cons.2 ⟨hmem, hp⟩)
    · rcases List.mem_append.1 hk with hk | hk
      · exact htrace (hopen k hk)
      · obtain rfl := List.mem_singleton.1 hk
        exact hkey

/-! ### The keys that are opened -/

/-- Resolving the text opens the key, if it may nest deep enough. -/
def Opens (c : Config) (lookup : Lookup) (text key : Text) : Prop :=
  ∃ bound, .opens key ∈ (c.resolveWithin lookup bound text).trace

/-- A text ends if it opens finitely many keys, and only then. -/
theorem exists_resolves_iff_finite :
    (∃ run, c.Resolves (.ofFunction value) text run) ↔
      {key | c.Opens (.ofFunction value) text key}.Finite := by
  constructor
  · rintro ⟨_, hne, bound, rfl⟩
    have hinj : Function.Injective Event.opens := fun _ _ => Event.opens.inj
    refine ((List.finite_toSet (c.resolveWithin (.ofFunction value) bound text).trace).preimage
      hinj.injOn).subset ?_
    rintro key ⟨bound', hk⟩
    change .opens key ∈ (c.resolveWithin (.ofFunction value) bound text).trace
    -- the run with the larger bound has noted what the other one has
    rcases le_total bound bound' with hle | hle
    · rwa [(resolveWithin_continues hle).eq hne]
    · exact (resolveWithin_continues hle).trace.subset hk
  · intro hfin
    refine ⟨_, resolves_of_ne (hfin.toFinset.card + 1) fun hex => ?_⟩
    rw [resolveWithin_eq] at hex
    obtain ⟨keys, hlen, hnodup, hopen⟩ := exists_open_of_exhausted hex
    have hsub : keys.toFinset ⊆ hfin.toFinset := by
      intro key hk
      rw [Set.Finite.mem_toFinset]
      exact ⟨_, by rw [resolveWithin_eq]; exact hopen key (List.mem_toFinset.1 hk)⟩
    have hcard := Finset.card_le_card hsub
    rw [List.toFinset_card_of_nodup (by simpa using hnodup List.nodup_nil)] at hcard
    omega

/-! ### Texts and keys that a run does not leave -/

lemma exists_of_mem_trace_sweep {fill : Text → Run (Option Text)} {pieces : List Piece}
    {event : Event} (h : event ∈ (c.sweep fill pieces).trace) :
    ∃ key, .hole key ∈ pieces ∧ event ∈ (fill key).trace := by
  induction pieces with
  | nil => cases h
  | cons piece more ih =>
    have hrest (h : event ∈ (c.sweep fill more).trace) :
        ∃ key, .hole key ∈ piece :: more ∧ event ∈ (fill key).trace :=
      (ih h).imp fun _ => And.imp_left (List.mem_cons_of_mem _)
    cases piece with
    | char ch => exact hrest (by simpa [sweep] using h)
    | stray => exact hrest (by simpa [sweep] using h)
    | hole key =>
      rw [sweep, Run.mem_trace_bind] at h
      obtain h | ⟨_, -, h⟩ := h
      · exact ⟨key, List.mem_cons_self, h⟩
      · exact hrest (by simpa using h)

/-- Looking up a value is asking for names. -/
lemma asks_of_mem_trace_valueOf {lookup : Lookup} {name : Text} {event : Event}
    (h : event ∈ (c.valueOf lookup name).trace) : ∃ asked, event = .asks asked := by
  have hask {name : Text} (h : event ∈ (ask lookup name).trace) :
      ∃ asked, event = .asks asked := by
    refine ⟨name, ?_⟩
    simpa [ask, Run.mem_trace_bind] using h
  obtain h | ⟨found, -, h⟩ := Run.mem_trace_bind.1 h
  · exact hask h
  · cases found with
    | some found => cases h
    | none =>
      rcases hs : c.split name with ⟨front, _ | default⟩
      · simp [hs] at h
      · simp only [hs] at h
        obtain h | ⟨found, -, h⟩ := Run.mem_trace_bind.1 h
        · exact hask h
        · cases h

/-- What a placeholder notes itself, where `expand` resolves its key. A placeholder is only kept if
there is no value for what its key expands to. -/
inductive Notes (c : Config) (value : Text → Option Text) (expand : Text → Run Text) (key : Text) :
    Event → Prop
  | opens : Notes c value expand key (.opens key)
  | asks (name : Text) : Notes c value expand key (.asks name)
  | fills (name : Text) : Notes c value expand key (.fills name)
  | keeps {name : Text} : c.lenient = true → (expand key).outcome = .done name →
      c.valueAt value name = none → Notes c value expand key (.keeps key)
  | closes : Notes c value expand key (.closes key)

/-- A step of a placeholder is its own, or one of what the run goes on with. -/
lemma notes_or_goesOn_of_mem_trace {event : Event}
    (h : event ∈ (c.substitute (.ofFunction value) expand text key).trace) :
    c.Notes value expand key event ∨
      ∃ part, c.GoesOn value expand key part ∧ event ∈ (expand part).trace := by
  rw [substitute, Run.mem_trace_bind] at h
  obtain h | ⟨_, -, h⟩ := h
  · obtain rfl : event = .opens key := by simpa using h
    exact .inl .opens
  obtain h | ⟨name, hn, h⟩ := Run.mem_trace_bind.1 h
  · exact .inr ⟨key, .key, h⟩
  obtain h | ⟨found, hf, h⟩ := Run.mem_trace_bind.1 h
  · obtain ⟨asked, rfl⟩ := asks_of_mem_trace_valueOf h
    exact .inl (.asks asked)
  obtain rfl : c.valueAt value name = found := by simpa using hf
  cases hv : c.valueAt value name with
  | some new =>
    rw [hv] at h
    obtain h | ⟨_, -, h⟩ := Run.mem_trace_bind.1 h
    · exact .inr ⟨new, .found hn hv, h⟩
    · obtain rfl | rfl : event = .fills name ∨ event = .closes key := by
        simpa [Run.mem_trace_bind] using h
      · exact .inl (.fills name)
      · exact .inl .closes
  | none =>
    simp only [hv] at h
    split at h
    · next hl =>
      obtain rfl | rfl : event = .keeps key ∨ event = .closes key := by
        simpa [Run.mem_trace_bind] using h
      · exact .inl (.keeps hl hn hv)
      · exact .inl .closes
    · cases h

/-- A step of a run is its beginning, or a step of one of its placeholders. -/
lemma enters_or_exists_of_mem_trace {lookup : Lookup} {fuel depth : ℕ} {path : List Text}
    {event : Event} (h : event ∈ (c.expandAt lookup (fuel + 1) path depth text).trace) :
    event = .enters depth path text ∨ ∃ key, .hole key ∈ c.pieces text ∧ key ∉ path ∧
      event ∈ (c.substitute lookup (c.expandAt lookup fuel (key :: path) (depth + 1)) text
        key).trace := by
  rcases c.expandAt_succ_cases lookup fuel path depth text with heq | ⟨limit, -, heq⟩
  · rw [heq, Run.mem_trace_bind] at h
    obtain h | ⟨_, -, h⟩ := h
    · exact .inl (by simpa using h)
    · obtain ⟨key, hk, h⟩ := exists_of_mem_trace_sweep h
      rw [fillAt] at h
      split at h
      · cases h
      · next hmem => exact .inr ⟨key, hk, hmem, h⟩
  · rw [heq, Run.mem_trace_bind] at h
    exact .inl (by simpa using h)

/-- Resolving one of the texts opens only some of the keys, and goes on with texts and keys among
these. -/
structure Pool (c : Config) (value : Text → Option Text) (texts keys : Set Text) : Prop where
  hole : ∀ {text key}, text ∈ texts → .hole key ∈ c.pieces text → key ∈ keys
  goesOn : ∀ {fuel path depth key part}, key ∈ keys →
    c.GoesOn value (c.expandAt (.ofFunction value) fuel path depth) key part → part ∈ texts

variable {texts keys : Set Text}

lemma Pool.mem_of_opens (pool : c.Pool value texts keys) {fuel depth : ℕ} {path : List Text}
    (ht : text ∈ texts)
    (h : .opens key ∈ (c.expandAt (.ofFunction value) fuel path depth text).trace) :
    key ∈ keys := by
  induction fuel generalizing path depth text with
  | zero => cases h
  | succ fuel ih =>
    obtain h | ⟨k, hk, -, h⟩ := enters_or_exists_of_mem_trace h
    · cases h
    · have hkeys := pool.hole ht hk
      obtain h | ⟨part, hpart, h⟩ := notes_or_goesOn_of_mem_trace h
      · cases h
        exact hkeys
      · exact ih (pool.goesOn hkeys hpart) h

/-- Every text is entered with all keys open around it on its path, as many as it lies deep, and
each of them is new where it is opened. -/
lemma Pool.path_of_enters (pool : c.Pool value texts keys) {fuel depth depth' : ℕ}
    {path path' : List Text} {inside : Text} (ht : text ∈ texts)
    (h : .enters depth' path' inside ∈
      (c.expandAt (.ofFunction value) fuel path depth text).trace) :
    ∃ opened, path' = opened ++ path ∧ depth' = opened.length + depth ∧
      (path.Nodup → path'.Nodup) ∧ ∀ key ∈ opened, key ∈ keys := by
  induction fuel generalizing path depth text with
  | zero => cases h
  | succ fuel ih =>
    obtain h | ⟨key, hk, hmem, h⟩ := enters_or_exists_of_mem_trace h
    · obtain ⟨rfl, rfl, rfl⟩ := Event.enters.inj h
      exact ⟨[], rfl, (Nat.zero_add _).symm, id, by simp⟩
    · have hkey := pool.hole ht hk
      obtain h | ⟨part, hpart, h⟩ := notes_or_goesOn_of_mem_trace h
      · cases h
      · obtain ⟨opened, rfl, rfl, hnodup, hopened⟩ := ih (pool.goesOn hkey hpart) h
        refine ⟨opened ++ [key], by simp, by simp; omega, fun hp => ?_, ?_⟩
        · exact hnodup (List.nodup_cons.2 ⟨hmem, hp⟩)
        · intro k hk
          rcases List.mem_append.1 hk with hk | hk
          · exact hopened k hk
          · exact List.mem_singleton.1 hk ▸ hkey

/-- A run that does not leave finitely many keys enters no text that lies deeper than there are
keys. -/
theorem Pool.depth_le (pool : c.Pool value texts keys) (hfin : keys.Finite) {bound depth : ℕ}
    {path : List Text} {inside : Text} (ht : text ∈ texts)
    (h : .enters depth path inside ∈ (c.resolveWithin (.ofFunction value) bound text).trace) :
    depth ≤ keys.ncard := by
  rw [resolveWithin_eq] at h
  obtain ⟨opened, rfl, rfl, hnodup, hopened⟩ := pool.path_of_enters ht h
  rw [List.append_nil] at hnodup
  have hsub : (opened.toFinset : Set Text) ⊆ keys := fun key hk => hopened key (by simpa using hk)
  calc opened.length + 0 = opened.toFinset.card :=
        (List.toFinset_card_of_nodup (hnodup List.nodup_nil)).symm
    _ = (opened.toFinset : Set Text).ncard := (Set.ncard_coe_finset _).symm
    _ ≤ keys.ncard := Set.ncard_le_ncard hsub hfin

/-- A run ends if it does not leave finitely many keys. -/
theorem Pool.exists_resolves (pool : c.Pool value texts keys) (hfin : keys.Finite)
    (ht : text ∈ texts) : ∃ run, c.Resolves (.ofFunction value) text run := by
  refine exists_resolves_iff_finite.2 (hfin.subset ?_)
  rintro key ⟨bound, hk⟩
  rw [resolveWithin_eq] at hk
  exact pool.mem_of_opens ht hk

end ConfigText.Config
