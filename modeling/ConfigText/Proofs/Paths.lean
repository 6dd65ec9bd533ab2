import ConfigText.Proofs.Runs
import ConfigText.Proofs.Scan
import Mathlib

/-!
Resolving with the open keys as an argument.

Whoever opens a key closes it, so the set of open keys is after a run what it was before, and it
can be handed down as the path of the keys around a text. More nesting allowed changes nothing
about a run that was not cut off, so each text has at most one run of its own.
-/

namespace ConfigText.Config

variable (c : Config) (lookup : Lookup)

/-- What a placeholder in `text` is replaced by, whether its key is open or not. -/
def substitute (expand : Text → Run Text) (text key : Text) : Run (Option Text) := do
  Run.note (.opens key)
  let name ← expand key
  match ← c.valueOf lookup name with
  | some value =>
    let value ← expand value
    Run.note (.fills name)
    Run.note (.closes key)
    return some value
  | none =>
    if c.lenient then
      Run.note (.keeps key)
      Run.note (.closes key)
      return none
    else Run.fail (.unresolvable name text)

/-- What a placeholder is replaced by where the keys on `path` are open. -/
def fillAt (expand : Text → Run Text) (path : List Text) (text key : Text) : Run (Option Text) :=
  if key ∈ path then Run.fail (.circular key) else c.substitute lookup expand text key

/-- The text with its placeholders replaced where the keys on `path` are open. -/
def expandAt : ℕ → List Text → ℕ → Text → Run Text
  | 0, _, _, _ => Run.cutOff
  | fuel + 1, path, depth, text => do
    Run.note (.enters depth path text)
    if c.opens text then
      match c.tooDeep depth with
      | some limit => Run.fail (.tooDeep limit text)
      | none =>
        c.sweep (fun key => c.fillAt lookup (expandAt fuel (key :: path) (depth + 1)) path text key)
          (c.pieces text)
    else return text

/-! ### The set of open keys is kept -/

variable {c lookup}

@[simp] lemma closeKey_run (path : List Text) (key : Text) :
    (closeKey key).run (key :: path) = (·, path) <$> Run.note (.closes key) := by
  simp [closeKey]

lemma openKey_run (path : List Text) (key : Text) :
    (openKey key).run path =
      if key ∈ path then Run.fail (.circular key)
      else (fun _ => ((), key :: path)) <$> Run.note (.opens key) := by
  by_cases hk : key ∈ path <;> simp [openKey, hk]

lemma fill_run {expand : Text → Tracked Text} {expand' : List Text → Text → Run Text}
    (h : ∀ path text, (expand text).run path = (·, path) <$> expand' path text)
    (path : List Text) (text key : Text) :
    (c.fill lookup expand text key).run path =
      (·, path) <$> c.fillAt lookup (expand' (key :: path)) path text key := by
  rw [fill, StateT.run_bind, openKey_run, fillAt]
  split
  · rfl
  · simp only [substitute, StateT.run_bind, StateT.run_monadLift, h, bind_map_left, map_bind,
      monadLift_self]
    refine bind_congr fun _ => bind_congr fun name => ?_
    simp only [bind_assoc, pure_bind]
    refine bind_congr fun value? => ?_
    cases value? with
    | some value => simp [h]
    | none => by_cases hl : c.lenient = true <;> simp [hl]

lemma sweep_run {σ : Type} {m : Type → Type} [Monad m] [LawfulMonad m]
    {fill : Text → StateT σ m (Option Text)} {fill' : Text → m (Option Text)} {state : σ}
    (h : ∀ key, (fill key).run state = (·, state) <$> fill' key) (pieces : List Piece) :
    (c.sweep fill pieces).run state = (·, state) <$> c.sweep fill' pieces := by
  induction pieces with
  | nil => simp [sweep]
  | cons piece more ih =>
    cases piece with
    | char ch => simp [sweep, ih]
    | stray => simp [sweep, ih]
    | hole key => simp [sweep, h, ih]

/-- Resolving keeps the set of the open keys, and does what it does with them as the path. -/
theorem expand_run (fuel depth : ℕ) (path : List Text) (text : Text) :
    (c.expand lookup fuel depth text).run path =
      (·, path) <$> c.expandAt lookup fuel path depth text := by
  induction fuel generalizing depth path text with
  | zero => rfl
  | succ fuel ih =>
    rw [expand, expandAt]
    simp only [StateT.run_bind, StateT.run_get, StateT.run_monadLift, monadLift_self, bind_assoc,
      pure_bind, map_bind]
    refine bind_congr fun _ => ?_
    by_cases ho : c.opens text = true
    · rw [if_pos ho, if_pos ho]
      cases c.tooDeep depth with
      | some limit => rfl
      | none =>
        simp only
        rw [splice_zero]
        exact sweep_run (fun key => fill_run (ih _) path text key) _
    · rw [if_neg ho, if_neg ho]
      simp

lemma resolveWithin_eq (bound : ℕ) (text : Text) :
    c.resolveWithin lookup bound text = c.expandAt lookup bound [] 0 text := by
  rw [resolveWithin, StateT.run'_eq, expand_run]
  simp

/-! ### How a placeholder ends -/

/-- The value for an expanded key, where the values are a function of the names. -/
def valueAt (c : Config) (value : Text → Option Text) (key : Text) : Option Text :=
  (value key).or ((c.split key).2.map fun default => (value (c.split key).1).getD default)

@[simp] lemma valueOf_outcome (value : Text → Option Text) (key : Text) :
    (c.valueOf (.ofFunction value) key).outcome = .done (c.valueAt value key) := by
  have hask (name : Text) : (ask (.ofFunction value) name).outcome = .done (value name) := rfl
  rw [valueOf, Run.bind_of_done (hask key)]
  cases hv : value key with
  | some found => simp [valueAt, hv]
  | none =>
    rcases hs : c.split key with ⟨name, _ | default⟩
    · simp [valueAt, hv, hs]
    · simp [valueAt, hv, hs, Run.bind_of_done (hask name)]

section Substitute

variable {value : Text → Option Text} {expand : Text → Run Text} {text key : Text}

lemma substitute_done {found : Option Text} :
    (c.substitute (.ofFunction value) expand text key).outcome = .done found ↔
      ∃ name, (expand key).outcome = .done name ∧
        ((∃ new result, c.valueAt value name = some new ∧ (expand new).outcome = .done result ∧
            found = some result) ∨
          (c.valueAt value name = none ∧ c.lenient = true ∧ found = none)) := by
  simp only [substitute, Run.outcome_note_bind, Run.outcome_bind_done, valueOf_outcome,
    Outcome.done.injEq, exists_eq_left']
  refine exists_congr fun name => and_congr_right fun _ => ?_
  cases c.valueAt value name with
  | some new => simp [Run.outcome_bind_done, @eq_comm _ found]
  | none => by_cases hl : c.lenient = true <;> simp [hl, @eq_comm _ found]

/-- What a run goes on with below an open key: the key, and the value that is found for what the
key expands to. -/
inductive GoesOn (c : Config) (value : Text → Option Text) (expand : Text → Run Text) (key : Text) :
    Text → Prop
  | key : GoesOn c value expand key key
  | found {name new : Text} : (expand key).outcome = .done name →
      c.valueAt value name = some new → GoesOn c value expand key new

lemma exists_goesOn_iff {P : Text → Prop} :
    (∃ part, c.GoesOn value expand key part ∧ P part) ↔
      P key ∨ ∃ name, (expand key).outcome = .done name ∧
        ∃ new, c.valueAt value name = some new ∧ P new := by
  constructor
  · rintro ⟨_, h, hp⟩
    cases h with
    | key => exact .inl hp
    | found hn hv => exact .inr ⟨_, hn, _, hv, hp⟩
  · rintro (hp | ⟨name, hn, new, hv, hp⟩)
    · exact ⟨key, .key, hp⟩
    · exact ⟨new, .found hn hv, hp⟩

lemma substitute_failed {failure : Failure} :
    (c.substitute (.ofFunction value) expand text key).outcome = .failed failure ↔
      (∃ part, c.GoesOn value expand key part ∧ (expand part).outcome = .failed failure) ∨
        ∃ name, (expand key).outcome = .done name ∧ c.valueAt value name = none ∧
          c.lenient = false ∧ failure = .unresolvable name text := by
  simp only [substitute, Run.outcome_note_bind, Run.outcome_bind_failed, valueOf_outcome,
    Outcome.done.injEq, exists_eq_left', reduceCtorEq, false_or]
  rw [exists_goesOn_iff, or_assoc, ← exists_or]
  refine or_congr_right (exists_congr fun name => ?_)
  rw [← and_or_left]
  refine and_congr_right fun _ => ?_
  cases c.valueAt value name with
  | some new => simp [Run.outcome_bind_failed]
  | none => by_cases hl : c.lenient = true <;> simp [hl, @eq_comm _ failure]

lemma substitute_exhausted :
    (c.substitute (.ofFunction value) expand text key).outcome = .exhausted ↔
      ∃ part, c.GoesOn value expand key part ∧ (expand part).outcome = .exhausted := by
  simp only [substitute, Run.outcome_note_bind, Run.outcome_bind_exhausted, valueOf_outcome,
    Outcome.done.injEq, exists_eq_left', reduceCtorEq, false_or]
  rw [exists_goesOn_iff]
  refine or_congr_right (exists_congr fun name => and_congr_right fun _ => ?_)
  cases c.valueAt value name with
  | some new => simp [Run.outcome_bind_exhausted]
  | none => by_cases hl : c.lenient = true <;> simp [hl]

/-- A placeholder by itself ends as the value does that is found for it. -/
lemma outcome_sweep_found {fill : Text → Run (Option Text)} {name new : Text}
    (hfill : fill key = c.substitute (.ofFunction value) expand text key)
    (hn : (expand key).outcome = .done name) (hv : c.valueAt value name = some new) :
    (c.sweep fill [.hole key]).outcome = (expand new).outcome := by
  rw [sweep, hfill]
  cases hnew : (expand new).outcome with
  | done result =>
    refine Run.outcome_bind_done.2
      ⟨some result, ?_, Run.outcome_map_done.2 ⟨[], rfl, List.append_nil result⟩⟩
    exact substitute_done.2 ⟨name, hn, .inl ⟨new, result, hv, hnew, rfl⟩⟩
  | failed failure =>
    exact Run.outcome_bind_failed.2 (.inl (substitute_failed.2 (.inl ⟨new, .found hn hv, hnew⟩)))
  | exhausted =>
    exact Run.outcome_bind_exhausted.2 (.inl (substitute_exhausted.2 ⟨new, .found hn hv, hnew⟩))

end Substitute

/-- A pass fails as one of its placeholders does. -/
lemma exists_of_sweep_failed {fill : Text → Run (Option Text)} {pieces : List Piece}
    {failure : Failure} (h : (c.sweep fill pieces).outcome = .failed failure) :
    ∃ key, .hole key ∈ pieces ∧ (fill key).outcome = .failed failure := by
  induction pieces with
  | nil => cases h
  | cons piece more ih =>
    have hrest (h : (c.sweep fill more).outcome = .failed failure) :
        ∃ key, .hole key ∈ piece :: more ∧ (fill key).outcome = .failed failure :=
      (ih h).imp fun _ => And.imp_left (List.mem_cons_of_mem _)
    cases piece with
    | char ch => exact hrest (by simpa [sweep] using h)
    | stray => exact hrest (by simpa [sweep] using h)
    | hole key =>
      rw [sweep, Run.outcome_bind_failed] at h
      obtain h | ⟨_, -, h⟩ := h
      · exact ⟨key, List.mem_cons_self, h⟩
      · exact hrest (by simpa using h)

/-! ### One pass compared with another -/

section Simulation

open Run

variable (sim : Simulation) {expand expand' : Text → Run Text}

lemma sweep_rel {fill fill' : Text → Run (Option Text)}
    (h : ∀ key, sim.Rel (fill key) (fill' key)) (pieces : List Piece) :
    sim.Rel (c.sweep fill pieces) (c.sweep fill' pieces) := by
  induction pieces with
  | nil => exact sim.refl _
  | cons piece more ih =>
    cases piece with
    | char ch => exact sim.map ih _
    | stray => exact sim.map ih _
    | hole key => exact sim.bind (h key) fun _ => sim.map ih _

lemma substitute_rel_of_valueOf {lookup' : Lookup}
    (hvalue : ∀ name, sim.Rel (c.valueOf lookup name) (c.valueOf lookup' name))
    (h : ∀ text, sim.Rel (expand text) (expand' text)) (text key : Text) :
    sim.Rel (c.substitute lookup expand text key) (c.substitute lookup' expand' text key) := by
  refine sim.bind (sim.refl _) fun _ => sim.bind (h key) fun name => ?_
  refine sim.bind (hvalue name) fun value? => ?_
  cases value? with
  | some value => exact sim.bind (h value) fun _ => sim.refl _
  | none => exact sim.refl _

lemma substitute_rel (h : ∀ text, sim.Rel (expand text) (expand' text)) (text key : Text) :
    sim.Rel (c.substitute lookup expand text key) (c.substitute lookup expand' text key) :=
  substitute_rel_of_valueOf sim (fun _ => sim.refl _) h text key

lemma fillAt_rel (h : ∀ text, sim.Rel (expand text) (expand' text)) (path : List Text)
    (text key : Text) :
    sim.Rel (c.fillAt lookup expand path text key) (c.fillAt lookup expand' path text key) := by
  unfold fillAt
  split
  · exact sim.refl _
  · exact substitute_rel sim h text key

section Lookups

variable {lookup' : Lookup} (hask : ∀ name, sim.Rel (ask lookup name) (ask lookup' name))
include hask

lemma valueOf_rel (key : Text) : sim.Rel (c.valueOf lookup key) (c.valueOf lookup' key) := by
  refine sim.bind (hask key) fun value? => ?_
  cases value? with
  | some value => exact sim.refl _
  | none =>
    rcases c.split key with ⟨name, _ | default⟩
    · exact sim.refl _
    · exact sim.bind (hask name) fun _ => sim.refl _

/-- A run has to do with its lookup only where it asks. -/
lemma expandAt_rel (fuel : ℕ) (path : List Text) (depth : ℕ) (text : Text) :
    sim.Rel (c.expandAt lookup fuel path depth text) (c.expandAt lookup' fuel path depth text) := by
  induction fuel generalizing path depth text with
  | zero => exact sim.refl _
  | succ fuel ih =>
    rw [expandAt, expandAt]
    refine sim.bind (sim.refl _) fun _ => ?_
    split
    · cases c.tooDeep depth with
      | some limit => exact sim.refl _
      | none =>
        refine sweep_rel sim (fun key => ?_) _
        unfold fillAt
        split
        · exact sim.refl _
        · exact substitute_rel_of_valueOf sim (valueOf_rel sim hask) (ih _ _) text key
    · exact sim.refl _

end Lookups

/-- Which text a placeholder stands in is seen only in what a failure says of it. -/
lemma substitute_alike (expand : Text → Run Text) (text text' key : Text) :
    (c.substitute lookup expand text key).Alike (c.substitute lookup expand text' key) := by
  refine .bind_left _ fun _ => .bind_left _ fun name => .bind_left _ fun value? => ?_
  cases value? with
  | some value => exact .refl _
  | none =>
    by_cases hl : c.lenient = true
    · simp only [hl, if_true]; exact .refl _
    · simp only [hl]
      exact ⟨rfl, .inr ⟨_, _, rfl, rfl, rfl⟩⟩

end Simulation

lemma tooDeep_eq_none (hmax : c.maxDepth = none) (depth : ℕ) : c.tooDeep depth = none := by
  simp [tooDeep, hmax]

lemma expandAt_succ {fuel depth : ℕ} {path : List Text} {text : Text}
    (h : c.tooDeep depth = none) :
    c.expandAt lookup (fuel + 1) path depth text =
      Run.note (.enters depth path text) >>= fun _ =>
        c.sweep (fun key => c.fillAt lookup (c.expandAt lookup fuel (key :: path) (depth + 1)) path
          text key) (c.pieces text) := by
  rw [expandAt, h]
  refine bind_congr fun _ => ?_
  split
  · rfl
  · next ho =>
    have hcut : Text.cut c.opener text = none := by simpa [opens, Text.has] using ho
    rw [c.pieces_of_cut_none hcut, sweep_only_chars]

/-- A text is gone through piece by piece, or it lies too deep. -/
lemma expandAt_succ_cases (c : Config) (lookup : Lookup) (fuel : ℕ) (path : List Text) (depth : ℕ)
    (text : Text) :
    (c.expandAt lookup (fuel + 1) path depth text =
      Run.note (.enters depth path text) >>= fun _ =>
        c.sweep (fun key => c.fillAt lookup (c.expandAt lookup fuel (key :: path) (depth + 1)) path
          text key) (c.pieces text)) ∨
    ∃ limit, c.tooDeep depth = some limit ∧ c.expandAt lookup (fuel + 1) path depth text =
      Run.note (.enters depth path text) >>= fun _ => Run.fail (.tooDeep limit text) := by
  cases hd : c.tooDeep depth with
  | none => exact .inl (expandAt_succ hd)
  | some limit =>
    by_cases ho : c.opens text = true
    · exact .inr ⟨limit, rfl, by rw [expandAt, if_pos ho, hd]⟩
    · have hcut : Text.cut c.opener text = none := by simpa [opens, Text.has] using ho
      refine .inl ?_
      rw [expandAt, if_neg ho, c.pieces_of_cut_none hcut, sweep_only_chars]

/-- A run fails where it lies too deep, or for one of its keys: the key is open, what is below it
fails, or there is no value for it. -/
lemma exists_of_expandAt_failed {value : Text → Option Text} {fuel depth : ℕ} {path : List Text}
    {text : Text} {failure : Failure}
    (h : (c.expandAt (.ofFunction value) (fuel + 1) path depth text).outcome = .failed failure) :
    (∃ limit, c.tooDeep depth = some limit ∧ failure = .tooDeep limit text) ∨
      ∃ key, .hole key ∈ c.pieces text ∧
        (key ∈ path ∧ failure = .circular key ∨
          (∃ part, c.GoesOn value
              (c.expandAt (.ofFunction value) fuel (key :: path) (depth + 1)) key part ∧
            (c.expandAt (.ofFunction value) fuel (key :: path) (depth + 1) part).outcome
              = .failed failure) ∨
          ∃ name, (c.expandAt (.ofFunction value) fuel (key :: path) (depth + 1) key).outcome
              = .done name ∧ c.valueAt value name = none ∧ c.lenient = false ∧
            failure = .unresolvable name text) := by
  rcases c.expandAt_succ_cases (.ofFunction value) fuel path depth text with
    heq | ⟨limit, hd, heq⟩
  · rw [heq, Run.outcome_note_bind] at h
    obtain ⟨key, hm, hk⟩ := exists_of_sweep_failed h
    rw [fillAt] at hk
    split at hk
    · next hmem => exact .inr ⟨key, hm, .inl ⟨hmem, by simpa [eq_comm] using hk⟩⟩
    · exact .inr ⟨key, hm, .inr (substitute_failed.1 hk)⟩
  · rw [heq, Run.outcome_note_bind] at h
    exact .inl ⟨limit, hd, by simpa [eq_comm] using h⟩

/-- More nesting allowed changes nothing about a run that was not cut off. -/
lemma expandAt_continues {fuel fuel' : ℕ} (hle : fuel ≤ fuel') (path : List Text) (depth : ℕ)
    (text : Text) :
    (c.expandAt lookup fuel path depth text).Continues
      (c.expandAt lookup fuel' path depth text) := by
  induction fuel generalizing fuel' path depth text with
  | zero => exact .cutOff _
  | succ fuel ih =>
    obtain ⟨fuel', rfl⟩ := Nat.exists_eq_succ_of_ne_zero (by omega : fuel' ≠ 0)
    refine .bind (.refl _) fun _ => ?_
    split
    · split
      · rfl
      · exact sweep_rel Run.continues
          (fun key => fillAt_rel Run.continues (ih (by omega) _ _) path text key) _
    · rfl

/-- What a text returns it returns with more nesting allowed as well. -/
lemma expandAt_done_mono {fuel fuel' depth : ℕ} {path : List Text} {text result : Text}
    (h : (c.expandAt lookup fuel path depth text).outcome = .done result) (hle : fuel ≤ fuel') :
    (c.expandAt lookup fuel' path depth text).outcome = .done result := by
  have hne : (c.expandAt lookup fuel path depth text).outcome ≠ .exhausted := by simp [h]
  rw [← (expandAt_continues hle path depth text).eq hne, h]

lemma tooDeep_eq_none_of_le {depth depth' : ℕ} (h : c.tooDeep depth = none) (hle : depth' ≤ depth) :
    c.tooDeep depth' = none := by
  rw [tooDeep, Option.filter_eq_none_iff] at h ⊢
  intro limit hlimit
  have := h limit hlimit
  simp only [decide_eq_true_eq] at this ⊢
  omega

/-- Where fewer keys are open and less lies around a text, it returns what it returned. -/
lemma expandAt_returnsAs {path path' : List Text} (hpath : path' ⊆ path) {depth depth' : ℕ}
    (hdepth : depth' ≤ depth) (fuel : ℕ) (text : Text) :
    (c.expandAt lookup fuel path depth text).ReturnsAs
      (c.expandAt lookup fuel path' depth' text) := by
  induction fuel generalizing path path' depth depth' text with
  | zero => exact nofun
  | succ fuel ih =>
    rw [expandAt, expandAt]
    refine .bind (fun _ h => h) fun _ => ?_
    split
    · cases hd : c.tooDeep depth with
      | some limit => exact nofun
      | none =>
        rw [tooDeep_eq_none_of_le hd hdepth]
        refine sweep_rel Run.returnsAs (fun key => ?_) _
        unfold fillAt
        split
        · exact nofun
        · next hmem =>
          rw [if_neg fun h => hmem (hpath h)]
          exact substitute_rel Run.returnsAs
            (ih (List.cons_subset_cons key hpath) (Nat.succ_le_succ hdepth)) text key
    · exact fun _ h => h

/-- Lookups that agree on what is asked for give the same run. -/
lemma resolveWithin_sameIf (lookup lookup' : Lookup) (bound : ℕ) (text : Text) :
    (c.resolveWithin lookup bound text).SameIf (fun name => lookup name = lookup' name)
      (c.resolveWithin lookup' bound text) := by
  rw [resolveWithin_eq, resolveWithin_eq]
  refine expandAt_rel (Run.sameIf _) (fun name hagree => ?_) bound [] 0 text
  rw [ask, ask, hagree name List.mem_cons_self]

/-! ### The run of a text -/

variable (c lookup)

/-- Resolving the text is this run, when it may nest as deep as it has to. -/
def Resolves (text : Text) (run : Run Text) : Prop :=
  run.outcome ≠ .exhausted ∧ ∃ bound, c.resolveWithin lookup bound text = run

/-- Resolving the text ends like this. -/
def Ends (text : Text) (outcome : Outcome Text) : Prop :=
  ∃ run, c.Resolves lookup text run ∧ run.outcome = outcome

variable {c lookup} {text : Text}

lemma resolves_of_ne (bound : ℕ)
    (h : (c.resolveWithin lookup bound text).outcome ≠ .exhausted) :
    c.Resolves lookup text (c.resolveWithin lookup bound text) :=
  ⟨h, bound, rfl⟩

lemma ends_of_outcome {outcome : Outcome Text} (bound : ℕ)
    (h : (c.resolveWithin lookup bound text).outcome = outcome) (hne : outcome ≠ .exhausted) :
    c.Ends lookup text outcome :=
  ⟨_, resolves_of_ne bound (h ▸ hne), h⟩

lemma resolveWithin_continues {bound bound' : ℕ} (hle : bound ≤ bound') :
    (c.resolveWithin lookup bound text).Continues (c.resolveWithin lookup bound' text) := by
  rw [resolveWithin_eq, resolveWithin_eq]
  exact expandAt_continues hle [] 0 text

/-- From some bound on, what a text may nest makes no difference to its run. -/
lemma Resolves.eventually {run : Run Text} (h : c.Resolves lookup text run) :
    ∃ bound, ∀ more ≥ bound, c.resolveWithin lookup more text = run := by
  obtain ⟨hne, bound, rfl⟩ := h
  exact ⟨bound, fun more hmore => ((resolveWithin_continues hmore).eq hne).symm⟩

/-- A text has one run at most. -/
lemma Resolves.unique {run run' : Run Text} (h : c.Resolves lookup text run)
    (h' : c.Resolves lookup text run') : run = run' := by
  obtain ⟨bound, hbound⟩ := h.eventually
  obtain ⟨bound', hbound'⟩ := h'.eventually
  rw [← hbound _ (le_max_left bound bound'), hbound' _ (le_max_right bound bound')]

lemma Ends.unique {o o' : Outcome Text} (h : c.Ends lookup text o) (h' : c.Ends lookup text o') :
    o = o' := by
  obtain ⟨run, hr, rfl⟩ := h
  obtain ⟨run', hr', rfl⟩ := h'
  rw [hr.unique hr']

end ConfigText.Config
