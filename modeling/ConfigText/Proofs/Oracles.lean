import ConfigText.Proofs.Stopping
import Mathlib

/-!
Resolving against a source of values that remembers.

What such a source has for a name may hang on all that it has been asked, so it can come up with a
new placeholder whenever it is asked. A limit on nesting ends the run against it all the same. Every
pass goes over a text once, whatever is put in, and below the limit no further pass begins.
-/

namespace ConfigText

/-- A source of values that remembers what it has been asked. It has a value for a name, or none. -/
abbrev Oracle (σ : Type) := Text → StateM σ (Option Text)

/-- The oracle that remembers nothing. -/
def Oracle.ofFunction {σ : Type} (value : Text → Option Text) : Oracle σ := fun name =>
  pure (value name)

/-- A run that keeps the memory of an oracle and the set of the keys that are open. -/
abbrev Remembering (σ : Type) := StateT σ Tracked

namespace Config

variable (c : Config) {σ : Type} (oracle : Oracle σ)

/-- The oracle's value for one name. -/
def askOracle (name : Text) : Remembering σ (Option Text) := do
  Run.note (.asks name)
  modifyGet fun memory => ((oracle name).run memory).run

/-- The oracle's value for an expanded key. -/
def valueFrom (key : Text) : Remembering σ (Option Text) := do
  match ← askOracle oracle key with
  | some value => return some value
  | none =>
    match c.split key with
    | (_, none) => return none
    | (name, some default) =>
      let value ← askOracle oracle name
      return some (value.getD default)

/-- What a placeholder in `text` is replaced by, where `expand` resolves its key and its value. -/
def fillFrom (expand : Text → Remembering σ Text) (text key : Text) :
    Remembering σ (Option Text) := do
  openKey key
  let name ← expand key
  match ← c.valueFrom oracle name with
  | some value =>
    let value ← expand value
    Run.note (.fills name)
    closeKey key
    return some value
  | none =>
    if c.lenient then
      Run.note (.keeps key)
      closeKey key
      return none
    else Run.fail (.unresolvable name text)

/-- The text with its placeholders replaced, `depth` keys being open around it. -/
def expandFrom : ℕ → ℕ → Text → Remembering σ Text
  | 0, _, _ => Run.cutOff
  | fuel + 1, depth, text => do
    let path ← (get : Tracked (List Text))
    Run.note (.enters depth path text)
    if c.opens text then
      match c.tooDeep depth with
      | some limit => Run.fail (.tooDeep limit text)
      | none => c.splice (c.fillFrom oracle (expandFrom fuel (depth + 1)) text) text 0
    else return text

/-- The text with its placeholders replaced, cut off where the run nests deeper than `bound`. -/
def resolveFrom (bound : ℕ) (memory : σ) (text : Text) : Run Text :=
  ((c.expandFrom oracle bound 0 text).run' memory).run' []

variable {c} {value : Text → Option Text} {memory : σ}

/-! ### Without memory -/

lemma askOracle_run (name : Text) :
    (askOracle (.ofFunction value) name).run memory =
      (·, memory) <$> (liftM (ask (.ofFunction value) name) : Tracked (Option Text)) := by
  have hvalue : Run.ofOutcome (Lookup.ofFunction value name) = pure (value name) := rfl
  simp [askOracle, ask, Oracle.ofFunction, hvalue]

lemma valueFrom_run (key : Text) :
    (c.valueFrom (.ofFunction value) key).run memory =
      (·, memory) <$> (liftM (c.valueOf (.ofFunction value) key) : Tracked (Option Text)) := by
  rw [valueFrom, valueOf, StateT.run_bind, askOracle_run]
  simp only [bind_map_left, liftM_bind, map_bind]
  refine bind_congr fun found => ?_
  cases found with
  | some value => simp
  | none =>
    rcases c.split key with ⟨name, _ | default⟩
    · simp
    · simp [askOracle_run]

lemma fillFrom_run {expand : Text → Remembering σ Text} {expand' : Text → Tracked Text}
    (h : ∀ text, (expand text).run memory = (·, memory) <$> expand' text) (text key : Text) :
    (c.fillFrom (.ofFunction value) expand text key).run memory =
      (·, memory) <$> c.fill (.ofFunction value) expand' text key := by
  simp only [fillFrom, fill, StateT.run_bind, StateT.run_monadLift, monadLift_self, h,
    valueFrom_run, bind_assoc, pure_bind, bind_map_left, map_bind]
  refine bind_congr fun _ => bind_congr fun name => bind_congr fun found => ?_
  cases found with
  | some value => simp [h]
  | none => by_cases hl : c.lenient = true <;> simp [hl]

/-- Against an oracle without memory the run is that against the function. -/
theorem expandFrom_run (fuel depth : ℕ) (text : Text) :
    (c.expandFrom (.ofFunction value) fuel depth text).run memory =
      (·, memory) <$> c.expand (.ofFunction value) fuel depth text := by
  induction fuel generalizing depth text with
  | zero => simp [expandFrom, expand]
  | succ fuel ih =>
    rw [expandFrom, expand]
    simp only [StateT.run_bind, StateT.run_monadLift, bind_assoc, pure_bind, map_bind,
      monadLift_self]
    refine bind_congr fun path => bind_congr fun _ => ?_
    by_cases ho : c.opens text = true
    · rw [if_pos ho, if_pos ho]
      cases c.tooDeep depth with
      | some limit => simp
      | none =>
        simp only
        rw [splice_zero, splice_zero]
        exact sweep_run (fillFrom_run (ih _) text) _
    · rw [if_neg ho, if_neg ho]
      simp

lemma resolveFrom_ofFunction (bound : ℕ) (memory : σ) (text : Text) :
    c.resolveFrom (.ofFunction value) bound memory text =
      c.resolveWithin (.ofFunction value) bound text := by
  rw [resolveFrom, resolveWithin, StateT.run'_eq, StateT.run'_eq, expandFrom_run]
  simp

end Config

/-! ### How deep a run nests -/

variable {σ α β : Type} {bound : ℕ} {cut : Prop}

/-- The run enters no text that lies deeper than `bound`, and it is cut off only if `cut` holds. -/
structure Run.Within (bound : ℕ) (cut : Prop) (run : Run α) : Prop where
  depth_le : ∀ depth path text, .enters depth path text ∈ run.trace → depth ≤ bound
  cut_off : run.outcome = .exhausted → cut

lemma Run.Within.bind {r : Run α} {f : α → Run β} (h : r.Within bound cut)
    (hn : ∀ a, (f a).Within bound cut) : (r >>= f).Within bound cut where
  depth_le depth path text hm := by
    obtain hm | ⟨a, -, hm⟩ := mem_trace_bind.1 hm
    · exact h.depth_le depth path text hm
    · exact (hn a).depth_le depth path text hm
  cut_off he := by
    obtain he | ⟨a, -, he⟩ := outcome_bind_exhausted.1 he
    · exact h.cut_off he
    · exact (hn a).cut_off he

/-- The run returns or fails, and it enters no text that lies deeper than `bound`. -/
structure Run.EndsWithin (bound : ℕ) (run : Run α) : Prop where
  ends : (∃ a, run.outcome = .done a) ∨ ∃ failure, run.outcome = .failed failure
  depth_le : ∀ depth path text, .enters depth path text ∈ run.trace → depth ≤ bound

lemma Run.Within.endsWithin {run : Run α} (h : run.Within bound cut) (hcut : ¬cut) :
    run.EndsWithin bound where
  ends := by
    cases ho : run.outcome with
    | done a => exact .inl ⟨a, rfl⟩
    | failed failure => exact .inr ⟨failure, rfl⟩
    | exhausted => exact absurd (h.cut_off ho) hcut
  depth_le := h.depth_le

lemma Run.EndsWithin.ne_exhausted {run : Run α} (h : run.EndsWithin bound) :
    run.outcome ≠ .exhausted := by
  obtain ⟨a, ho⟩ | ⟨failure, ho⟩ := h.ends <;> simp [ho]

lemma Run.within_pure (a : α) : (Pure.pure a : Run α).Within bound cut := ⟨by simp, by simp⟩

lemma Run.within_fail (failure : Failure) : (fail failure : Run α).Within bound cut :=
  ⟨by simp, by simp⟩

lemma Run.within_enters {depth : ℕ} (h : depth ≤ bound) (path : List Text) (text : Text) :
    (note (.enters depth path text)).Within bound cut where
  depth_le _ _ _ hm := by
    obtain ⟨rfl, -, -⟩ := Event.enters.inj (List.mem_singleton.1 hm)
    exact h
  cut_off := by simp

lemma Run.within_note {event : Event}
    (h : ∀ depth path text, event ≠ .enters depth path text) :
    (note event).Within bound cut where
  depth_le depth path text hm := absurd (List.mem_singleton.1 hm).symm (h depth path text)
  cut_off := by simp

/-- Whatever the oracle remembers and whichever keys are open, the run keeps within these bounds. -/
def Remembering.Within (bound : ℕ) (cut : Prop) (x : Remembering σ α) : Prop :=
  ∀ memory path, ((x.run memory).run path).Within bound cut

namespace Remembering

lemma Within.bind {x : Remembering σ α} {f : α → Remembering σ β}
    (h : Within bound cut x) (hn : ∀ a, Within bound cut (f a)) : Within bound cut (x >>= f) := by
  intro memory path
  rw [StateT.run_bind, StateT.run_bind]
  exact (h memory path).bind fun found => hn found.1.1 found.1.2 found.2

lemma within_pure (a : α) : Within bound cut (pure a : Remembering σ α) := fun _ _ =>
  Run.within_pure _

lemma within_tracked {x : Tracked α} (h : ∀ path, (x.run path).Within bound cut) :
    Within bound cut (liftM x : Remembering σ α) := by
  intro memory path
  have hlift : ((liftM x : Remembering σ α).run memory).run path =
      x.run path >>= fun found => pure ((found.1, memory), found.2) := by
    simp
  rw [hlift]
  exact (h path).bind fun found => Run.within_pure _

lemma within_run {run : Run α} (h : run.Within bound cut) :
    Within bound cut (liftM run : Remembering σ α) := by
  refine within_tracked (x := liftM run) fun path => ?_
  have hlift : (liftM run : Tracked α).run path = run >>= fun a => pure (a, path) := by simp
  rw [hlift]
  exact h.bind fun a => Run.within_pure _

end Remembering

namespace Config

variable {c : Config} {oracle : Oracle σ}

lemma within_ask (name : Text) : Remembering.Within bound cut (askOracle oracle name) := by
  refine .bind (Remembering.within_run (Run.within_note (by simp))) fun _ memory path => ?_
  exact Run.within_pure _

lemma within_valueFrom (key : Text) : Remembering.Within bound cut (c.valueFrom oracle key) := by
  refine .bind (within_ask key) fun found => ?_
  cases found with
  | some value => exact Remembering.within_pure _
  | none =>
    rcases c.split key with ⟨name, _ | default⟩
    · exact Remembering.within_pure _
    · exact .bind (within_ask name) fun found => Remembering.within_pure _

lemma within_openKey (key : Text) :
    Remembering.Within bound cut (liftM (openKey key) : Remembering σ Unit) := by
  refine Remembering.within_tracked fun path => ?_
  rw [openKey_run]
  split
  · exact Run.within_fail _
  · rw [← bind_pure_comp]
    exact .bind (Run.within_note (by simp)) fun _ => Run.within_pure _

lemma within_closeKey (key : Text) :
    Remembering.Within bound cut (liftM (closeKey key) : Remembering σ Unit) := by
  refine Remembering.within_tracked fun path => ?_
  have hrun : (closeKey key).run path =
      Run.note (.closes key) >>= fun _ => pure ((), path.erase key) := by simp [closeKey]
  rw [hrun]
  exact .bind (Run.within_note (by simp)) fun _ => Run.within_pure _

lemma within_fillFrom {expand : Text → Remembering σ Text}
    (h : ∀ text, Remembering.Within bound cut (expand text)) (text key : Text) :
    Remembering.Within bound cut (c.fillFrom oracle expand text key) := by
  refine .bind (within_openKey key) fun _ => .bind (h key) fun name => ?_
  refine .bind (within_valueFrom name) fun found => ?_
  cases found with
  | some value =>
    refine .bind (h value) fun value => ?_
    refine .bind (Remembering.within_run (Run.within_note (by simp))) fun _ => ?_
    exact .bind (within_closeKey key) fun _ => Remembering.within_pure _
  | none =>
    by_cases hl : c.lenient = true
    · simp only [hl, if_true]
      refine .bind (Remembering.within_run (Run.within_note (by simp))) fun _ => ?_
      exact .bind (within_closeKey key) fun _ => Remembering.within_pure _
    · simp only [hl]
      exact Remembering.within_run (Run.within_fail _)

lemma within_sweep {fill : Text → Remembering σ (Option Text)}
    (h : ∀ key, Remembering.Within bound cut (fill key)) (pieces : List Piece) :
    Remembering.Within bound cut (c.sweep fill pieces) :=
  c.sweep_closed fill (P := Remembering.Within bound cut) Remembering.within_pure
    Remembering.Within.bind fun key _ => h key

section Limit

variable {limit fuel depth : ℕ} (hmax : c.maxDepth = some limit)
include hmax

lemma le_of_tooDeep_eq_none (h : c.tooDeep depth = none) : depth ≤ limit := by
  by_contra hlt
  rw [tooDeep, hmax, filter_limit_eq_some (by omega)] at h
  cases h

/-- A level deeper there is one level less to go. -/
theorem within_expandFrom (hdepth : depth ≤ limit + 1) (text : Text) :
    Remembering.Within (limit + 1) (fuel + depth ≤ limit + 1)
      (c.expandFrom oracle fuel depth text) := by
  induction fuel generalizing depth text with
  | zero => exact Remembering.within_run ⟨by simp, fun _ => by omega⟩
  | succ fuel ih =>
    refine .bind (Remembering.within_tracked fun path => Run.within_pure _) fun path => ?_
    refine .bind (Remembering.within_run (Run.within_enters hdepth path text)) fun _ => ?_
    split
    · cases hd : c.tooDeep depth with
      | some limit' => exact Remembering.within_run (Run.within_fail _)
      | none =>
        -- in place means one pass over the pieces, so the values that are put in do not count
        have hle := le_of_tooDeep_eq_none hmax hd
        simp only [splice_zero]
        rw [Nat.add_right_comm, Nat.add_assoc]
        exact within_sweep (within_fillFrom (ih (Nat.succ_le_succ hle)) text) _
    · exact Remembering.within_pure _

lemma within_resolveFrom {bound : ℕ} {memory : σ} {text : Text} :
    (c.resolveFrom oracle bound memory text).Within (limit + 1) (bound ≤ limit + 1) := by
  have hrun : c.resolveFrom oracle bound memory text =
      ((c.expandFrom oracle bound 0 text).run memory).run [] >>= fun found =>
        pure found.1.1 := by
    simp [resolveFrom, StateT.run'_eq]
  rw [hrun]
  exact (within_expandFrom hmax (Nat.zero_le _) text memory []).bind fun _ => Run.within_pure _

/-- Where a run may nest deeper than the limit, it does not matter how deep. -/
lemma expandFrom_eq_of_limit {fuel' : ℕ} (hdepth : depth ≤ limit + 1)
    (hfuel : limit + 1 < fuel + depth) (hfuel' : limit + 1 < fuel' + depth) (text : Text) :
    c.expandFrom oracle fuel depth text = c.expandFrom oracle fuel' depth text := by
  induction fuel generalizing fuel' depth text with
  | zero => omega
  | succ fuel ih =>
    obtain ⟨fuel', rfl⟩ := Nat.exists_eq_succ_of_ne_zero (by omega : fuel' ≠ 0)
    rw [expandFrom, expandFrom]
    refine bind_congr fun path => bind_congr fun _ => ?_
    split
    · cases hd : c.tooDeep depth with
      | some limit' => rfl
      | none =>
        have hle := le_of_tooDeep_eq_none hmax hd
        have hbelow :
            c.expandFrom oracle fuel (depth + 1) = c.expandFrom oracle fuel' (depth + 1) :=
          funext fun text => ih (Nat.succ_le_succ hle) (by omega) (by omega) text
        simp only [hbelow]
    · rfl

end Limit

/-- **A limit on nesting ends every run.** Against any oracle, whatever it comes up with when it is
asked again, a run with a limit returns or fails, and it enters no text that lies more than one
level deeper than the limit. So does the run against any function. -/
theorem ends_against_any_oracle (c : Config) {limit : ℕ} (hmax : c.maxDepth = some limit)
    (text : Text) :
    (∀ (σ : Type) (oracle : Oracle σ) (memory : σ), ∃ run : Run Text,
      (∀ bound ≥ limit + 2, c.resolveFrom oracle bound memory text = run) ∧
        run.EndsWithin (limit + 1)) ∧
    ∀ value : Text → Option Text, ∃ run, c.Resolves (.ofFunction value) text run ∧
      run.EndsWithin (limit + 1) := by
  have hends {σ : Type} (oracle : Oracle σ) (memory : σ) :
      (c.resolveFrom oracle (limit + 2) memory text).EndsWithin (limit + 1) :=
    (within_resolveFrom hmax).endsWithin (by omega)
  constructor
  · intro σ oracle memory
    refine ⟨c.resolveFrom oracle (limit + 2) memory text, fun bound hle => ?_, hends oracle memory⟩
    have heq : c.expandFrom oracle bound 0 text = c.expandFrom oracle (limit + 2) 0 text :=
      expandFrom_eq_of_limit hmax (Nat.zero_le _) (by omega) (by omega) text
    rw [resolveFrom, heq, resolveFrom]
  · intro value
    have hvalue := hends (.ofFunction value) ()
    rw [resolveFrom_ofFunction] at hvalue
    exact ⟨_, resolves_of_ne (limit + 2) hvalue.ne_exhausted, hvalue⟩

/-- The oracle that comes up with a new and longer placeholder for every name. -/
def growing : Oracle ℕ := fun _ => do
  let asked ← get
  set (asked + 1)
  return some (braces.enclose (List.replicate (asked + 1) 'x'))

/-- With two levels `${a}` goes on to `${xxx}` and ends there. -/
theorem growing_ends :
    (braces.withLimit (some 2)).maxDepth = some 2 ∧
    ∃ run : Run Text,
      (∀ bound ≥ 4, (braces.withLimit (some 2)).resolveFrom growing bound 0
        (braces.enclose ['a']) = run) ∧
      run.outcome = .failed (.tooDeep 2 (braces.enclose ['x', 'x', 'x'])) ∧
      run.EndsWithin 3 := by
  have hlimit : (braces.withLimit (some 2)).maxDepth = some 2 := rfl
  obtain ⟨run, hrun, hends⟩ :=
    (ends_against_any_oracle _ hlimit (braces.enclose ['a'])).1 ℕ growing 0
  refine ⟨hlimit, run, hrun, ?_, hends⟩
  rw [← hrun 4 le_rfl]
  decide +kernel

end Config
end ConfigText
