import ConfigText.Proofs.Endless
import ConfigText.Proofs.Leftovers
import Mathlib

/-!
What the policy for keys without a value and the limit on nesting change about a run.

Neither changes what a run does, they only stop it: a strict run is the lenient one up to the first
placeholder that is left in place, and a run with a limit is the one without up to the first text
that lies too deep. So two runs are compared step by step, where the first may stop as soon as the
second notes a certain event.
-/

namespace ConfigText.Config

variable (c : Config)

/-- The configuration where placeholders without a value stay, or where they do not. -/
def withPolicy (lenient : Bool) : Config := { c with lenient := lenient }

/-- The configuration with another limit on nesting. -/
def withLimit (limit : Option ℕ) : Config := { c with maxDepth := limit }

variable {c} {lookup : Lookup} {value : Text → Option Text} {text name inside : Text}
  {fuel depth limit : ℕ} {path : List Text}

section Marks

variable (fill : Text → Run (Option Text)) (pieces : List Piece) (text : Text) (depth : ℕ)

section Policy

variable (lenient : Bool)

@[simp] lemma opens_withPolicy : (c.withPolicy lenient).opens text = c.opens text := rfl

@[simp] lemma tooDeep_withPolicy : (c.withPolicy lenient).tooDeep depth = c.tooDeep depth := rfl

@[simp] lemma pieces_withPolicy : (c.withPolicy lenient).pieces text = c.pieces text :=
  pieces_eq_of_marks (c := c) (d := c.withPolicy lenient) rfl rfl rfl text

@[simp] lemma sweep_withPolicy : (c.withPolicy lenient).sweep fill pieces = c.sweep fill pieces :=
  sweep_eq_of_marks (c := c) (d := c.withPolicy lenient) rfl rfl fill pieces

end Policy

section Limit

variable (limit : Option ℕ)

@[simp] lemma opens_withLimit : (c.withLimit limit).opens text = c.opens text := rfl

@[simp] lemma tooDeep_withLimit :
    (c.withLimit limit).tooDeep depth = limit.filter (· < depth) := rfl

@[simp] lemma pieces_withLimit : (c.withLimit limit).pieces text = c.pieces text :=
  pieces_eq_of_marks (c := c) (d := c.withLimit limit) rfl rfl rfl text

@[simp] lemma sweep_withLimit : (c.withLimit limit).sweep fill pieces = c.sweep fill pieces :=
  sweep_eq_of_marks (c := c) (d := c.withLimit limit) rfl rfl fill pieces

@[simp] lemma fillAt_withLimit (expand : Text → Run Text) (path : List Text) (key : Text) :
    (c.withLimit limit).fillAt lookup expand path text key
      = c.fillAt lookup expand path text key := rfl

end Limit

end Marks

/-! ### A text with a run that may stop -/

section Stopping

variable {d : Config} {stop : Failure → Prop} {mark : Event → Prop}
  (hstops : ∀ bound,
    (c.resolveWithin lookup bound text).StopsAt stop mark (d.resolveWithin lookup bound text))
include hstops

lemma Resolves.of_stopsAt {run : Run Text} (hrun : c.Resolves lookup text run)
    (hne : ∀ e, run.outcome = .failed e → ¬stop e) : d.Resolves lookup text run := by
  obtain ⟨hend, bound, rfl⟩ := hrun
  exact ⟨hend, bound, ((hstops bound).eq hne).symm⟩

lemma fails_iff_of_stopsAt
    (hafter : ∀ bound, (c.resolveWithin lookup bound text).FailsAfter stop mark)
    (hnever : ∀ e, d.Fails lookup text e → ¬stop e) :
    (∃ e, c.Fails lookup text e ∧ stop e) ↔
      ∃ bound, ∃ event ∈ (d.resolveWithin lookup bound text).trace, mark event := by
  have hiff (bound : ℕ) := (hstops bound).stop_iff (hafter bound) fun e he =>
    hnever e (ends_of_outcome bound he nofun)
  constructor
  · rintro ⟨e, ⟨_, ⟨-, bound, rfl⟩, he⟩, hstop⟩
    exact ⟨bound, (hiff bound).1 ⟨e, he, hstop⟩⟩
  · rintro ⟨bound, hmark⟩
    obtain ⟨e, he, hstop⟩ := (hiff bound).2 hmark
    exact ⟨e, ends_of_outcome bound he nofun, hstop⟩

end Stopping

/-! ### Strict and lenient -/

/-- A key has no value. -/
def MissesValue (failure : Failure) : Prop := ∃ name inside, failure = .unresolvable name inside

/-- A placeholder is left in place. -/
def KeepsPlaceholder (event : Event) : Prop := ∃ key, event = .keeps key

/-- A placeholder without a value is where the strict run stops and the lenient one goes on. -/
lemma substitute_stopsAt {expand expand' : Text → Run Text}
    (h : ∀ text, (expand text).StopsAt MissesValue KeepsPlaceholder (expand' text))
    (text key : Text) :
    ((c.withPolicy false).substitute lookup expand text key).StopsAt MissesValue KeepsPlaceholder
      ((c.withPolicy true).substitute lookup expand' text key) := by
  refine .bind (.inl rfl) fun _ => .bind (h key) fun name => .bind (.inl rfl) fun value? => ?_
  cases value? with
  | some value => exact .bind (h value) fun _ => .inl rfl
  | none =>
    exact .inr ⟨⟨_, rfl, name, text, rfl⟩, List.nil_prefix, .keeps key, List.mem_cons_self, key,
      rfl⟩

lemma expandAt_withPolicy_stopsAt (c : Config) (lookup : Lookup) (fuel : ℕ) (path : List Text)
    (depth : ℕ) (text : Text) :
    ((c.withPolicy false).expandAt lookup fuel path depth text).StopsAt MissesValue KeepsPlaceholder
      ((c.withPolicy true).expandAt lookup fuel path depth text) := by
  induction fuel generalizing path depth text with
  | zero => exact .inl rfl
  | succ fuel ih =>
    simp only [expandAt, opens_withPolicy, tooDeep_withPolicy, pieces_withPolicy, sweep_withPolicy]
    refine .bind (.inl rfl) fun _ => ?_
    split
    · cases c.tooDeep depth with
      | some limit => exact .inl rfl
      | none =>
        refine sweep_rel (Run.stopsAt MissesValue KeepsPlaceholder) (fun key => ?_) _
        unfold fillAt
        split
        · exact .inl rfl
        · exact substitute_stopsAt (ih _ _) text key
    · exact .inl rfl

/-- A strict run is the lenient one up to the first placeholder that is left in place. -/
lemma resolveWithin_withPolicy_stopsAt (c : Config) (lookup : Lookup) (bound : ℕ) (text : Text) :
    ((c.withPolicy false).resolveWithin lookup bound text).StopsAt MissesValue KeepsPlaceholder
      ((c.withPolicy true).resolveWithin lookup bound text) := by
  rw [resolveWithin_eq, resolveWithin_eq]
  exact expandAt_withPolicy_stopsAt c lookup bound [] 0 text

/-- A strict run leaves no placeholder in place. -/
lemma resolveWithin_strict_failsAfter (c : Config) (value : Text → Option Text) (bound : ℕ)
    (text : Text) :
    ((c.withPolicy false).resolveWithin (.ofFunction value) bound text).FailsAfter MissesValue
      KeepsPlaceholder := by
  rw [resolveWithin_eq]
  refine Run.failsAfter_of_forall ?_
  rintro _ hkeeps ⟨key, rfl⟩
  cases (lacks_of_keeps hkeeps).1

/-- A key fails for want of a value only where the run is strict. It is what a placeholder expands
to that stands in the text that the failure tells of. -/
lemma missing_of_expandAt
    (h : (c.expandAt (.ofFunction value) fuel path depth text).outcome
      = .failed (.unresolvable name inside)) :
    c.lenient = false ∧ c.valueAt value name = none ∧ ∃ key, .hole key ∈ c.pieces inside ∧
      (c.expandAt (.ofFunction value) fuel [key] 1 key).outcome = .done name := by
  induction fuel generalizing path depth text with
  | zero => cases h
  | succ fuel ih =>
    obtain ⟨_, -, h⟩ | ⟨key, hkey, ⟨-, h⟩ | ⟨part, -, h⟩ | ⟨name', hn, hv, hl, h⟩⟩ :=
      exists_of_expandAt_failed h
    · cases h
    · cases h
    · obtain ⟨hl, hv, other, hother, hn⟩ := ih h
      exact ⟨hl, hv, other, hother, expandAt_done_mono hn (Nat.le_succ fuel)⟩
    · obtain ⟨rfl, rfl⟩ := Failure.unresolvable.inj h
      -- with less open around it the key expands to the same
      have hsub : [key] ⊆ key :: path := List.cons_subset_cons key (List.nil_subset path)
      have hn' := expandAt_returnsAs hsub (Nat.le_add_left 1 depth) fuel key name hn
      exact ⟨hl, hv, key, hkey, expandAt_done_mono hn' (Nat.le_succ fuel)⟩

/-- A key has no default exactly if the separator does not stand in it. -/
lemma split_eq_none_iff {mark : Text} (hsep : c.separator = some mark) (hne : mark ≠ []) :
    (c.split name).2 = none ↔ ¬mark <:+: name := by
  obtain ⟨ch, rest, rfl⟩ := List.exists_cons_of_ne_nil hne
  rw [← Text.has_iff, Text.has, split, hsep]
  cases hcut : Text.cut (ch :: rest) name <;> simp [splitDefault, hcut]

lemma missing_of_fails (h : c.Fails (.ofFunction value) text (.unresolvable name inside)) :
    c.lenient = false ∧ c.valueAt value name = none ∧ ∃ key, .hole key ∈ c.pieces inside := by
  obtain ⟨_, ⟨-, bound, rfl⟩, h⟩ := h
  rw [resolveWithin_eq] at h
  obtain ⟨hl, hv, key, hkey, -⟩ := missing_of_expandAt h
  exact ⟨hl, hv, key, hkey⟩

/-- **Strict and lenient runs differ only where a value is missing.** A strict run that does not
fail for want of a value is the lenient run, with the same end and the same steps. It does fail for
want of a value exactly if the lenient run leaves a placeholder in place; then the lookup has no
value for the key that it names, this key has no default, and there is a placeholder in the text
that it tells of. A lenient run never fails so. -/
theorem strict_run_is_lenient_run (c : Config) (value : Text → Option Text) (text : Text) :
    (∀ run, (c.withPolicy false).Resolves (.ofFunction value) text run →
      (∀ name inside, run.outcome ≠ .failed (.unresolvable name inside)) →
      (c.withPolicy true).Resolves (.ofFunction value) text run) ∧
    ((∃ name inside, (c.withPolicy false).Fails (.ofFunction value) text
        (.unresolvable name inside)) ↔
      ∃ bound key,
        .keeps key ∈ ((c.withPolicy true).resolveWithin (.ofFunction value) bound text).trace) ∧
    (∀ name inside,
      (c.withPolicy false).Fails (.ofFunction value) text (.unresolvable name inside) →
      value name = none ∧ (∀ mark, c.separator = some mark → mark ≠ [] → ¬mark <:+: name) ∧
        c.placeholders inside ≠ []) ∧
    ∀ name inside,
      ¬(c.withPolicy true).Fails (.ofFunction value) text (.unresolvable name inside) := by
  have hstops := fun bound => resolveWithin_withPolicy_stopsAt c (.ofFunction value) bound text
  have hnever : ∀ name inside,
      ¬(c.withPolicy true).Fails (.ofFunction value) text (.unresolvable name inside) :=
    fun name inside h => Bool.noConfusion (missing_of_fails h).1
  refine ⟨fun run hrun hne => ?_, ?_, fun name inside h => ?_, hnever⟩
  · refine hrun.of_stopsAt hstops ?_
    rintro _ he ⟨name, inside, rfl⟩
    exact hne name inside he
  · have hafter := fun bound => resolveWithin_strict_failsAfter c value bound text
    have hiff := fails_iff_of_stopsAt hstops hafter (by
      rintro _ h ⟨name, inside, rfl⟩
      exact hnever name inside h)
    constructor
    · rintro ⟨name, inside, h⟩
      obtain ⟨bound, _, hkeeps, key, rfl⟩ := hiff.1 ⟨_, h, name, inside, rfl⟩
      exact ⟨bound, key, hkeeps⟩
    · rintro ⟨bound, key, hkeeps⟩
      obtain ⟨_, h, name, inside, rfl⟩ := hiff.2 ⟨bound, _, hkeeps, key, rfl⟩
      exact ⟨name, inside, h⟩
  · obtain ⟨-, hv, key, hkey⟩ := missing_of_fails h
    have hv : c.valueAt value name = none := hv
    rw [valueAt, Option.or_eq_none_iff, Option.map_eq_none_iff] at hv
    refine ⟨hv.1, fun mark hsep hne => (split_eq_none_iff hsep hne).1 hv.2, ?_⟩
    rw [pieces_withPolicy] at hkey
    obtain ⟨p, hp, -⟩ := exists_mem_placeholdersAt (c := c) hkey
    rw [placeholders_eq]
    exact List.ne_nil_of_mem hp

/-! ### Limits on nesting -/

/-- Nesting goes beyond the limit. -/
def BeyondLimit (limit : ℕ) (failure : Failure) : Prop := ∃ inside, failure = .tooDeep limit inside

/-- A text that holds an opener is gone through below more open keys than the limit allows. -/
def EntersBeyond (c : Config) (limit : ℕ) (event : Event) : Prop :=
  ∃ path inside, event = .enters (limit + 1) path inside ∧ c.opens inside = true

lemma filter_limit_eq_none {more : Option ℕ} (h : ∀ m ∈ more, limit ≤ m) (hle : depth ≤ limit) :
    more.filter (· < depth) = none := by
  rw [Option.filter_eq_none_iff]
  intro m hm
  have := h m hm
  simp only [decide_eq_true_eq]
  omega

lemma filter_limit_eq_some (h : limit < depth) : (some limit).filter (· < depth) = some limit := by
  simp [h]

/-- The first text that lies too deep is where the run with the limit stops and the one with a
larger limit, or with none, goes on. -/
lemma expandAt_withLimit_stopsAt (c : Config) (lookup : Lookup) {more : Option ℕ}
    (hmore : ∀ m ∈ more, limit ≤ m) (fuel : ℕ) (path : List Text) (hdepth : depth ≤ limit + 1)
    (text : Text) :
    ((c.withLimit (some limit)).expandAt lookup fuel path depth text).StopsAt (BeyondLimit limit)
      (c.EntersBeyond limit) ((c.withLimit more).expandAt lookup fuel path depth text) := by
  induction fuel generalizing path depth text with
  | zero => exact .inl rfl
  | succ fuel ih =>
    simp only [expandAt, opens_withLimit, tooDeep_withLimit, pieces_withLimit, sweep_withLimit,
      fillAt_withLimit]
    by_cases ho : c.opens text = true
    · simp only [if_pos ho]
      by_cases hle : depth ≤ limit
      · rw [filter_limit_eq_none hmore hle, filter_limit_eq_none (by simp) hle]
        refine .bind (.inl rfl) fun _ => ?_
        exact sweep_rel (Run.stopsAt (BeyondLimit limit) (c.EntersBeyond limit))
          (fun key => fillAt_rel (Run.stopsAt _ _) (ih _ (by omega)) path text key) _
      · -- the first text that lies too deep: the limited run stops, the other one goes on
        obtain rfl : depth = limit + 1 := by omega
        rw [filter_limit_eq_some (Nat.lt_succ_self limit)]
        exact Run.stopsAt_note_fail ⟨path, text, rfl, ho⟩ ⟨text, rfl⟩ _
    · simp only [if_neg ho]
      exact .inl rfl

/-- A run with a limit is the one with a larger limit, or with none, up to the first text that lies
too deep. -/
lemma resolveWithin_withLimit_stopsAt (c : Config) (lookup : Lookup) {more : Option ℕ}
    (hmore : ∀ m ∈ more, limit ≤ m) (bound : ℕ) (text : Text) :
    ((c.withLimit (some limit)).resolveWithin lookup bound text).StopsAt (BeyondLimit limit)
      (c.EntersBeyond limit) ((c.withLimit more).resolveWithin lookup bound text) := by
  rw [resolveWithin_eq, resolveWithin_eq]
  exact expandAt_withLimit_stopsAt c lookup hmore bound [] (Nat.zero_le _) text

section FailsAfter

variable {stop : Failure → Prop} {mark : Event → Prop}

lemma sweep_failsAfter {fill : Text → Run (Option Text)}
    (hfill : ∀ key, (fill key).FailsAfter stop mark) (pieces : List Piece) :
    (c.sweep fill pieces).FailsAfter stop mark :=
  c.sweep_closed fill (P := Run.FailsAfter stop mark) (fun _ => Run.failsAfter_of_trace_eq_nil rfl)
    Run.FailsAfter.bind fun key _ => hfill key

/-- What a placeholder notes itself is no such event. -/
lemma substitute_failsAfter {expand : Text → Run Text}
    (hmark : ∀ event, mark event → ∃ depth path text, event = .enters depth path text)
    (h : ∀ text, (expand text).FailsAfter stop mark) (text key : Text) :
    (c.substitute (.ofFunction value) expand text key).FailsAfter stop mark := by
  intro event hevent hm
  obtain ⟨depth, path, inside, rfl⟩ := hmark event hm
  obtain hnotes | ⟨part, hpart, hevent⟩ := notes_or_goesOn_of_mem_trace hevent
  · cases hnotes
  · obtain ⟨e, he, hstop⟩ := h part _ hevent hm
    exact ⟨e, substitute_failed.2 (.inl ⟨part, hpart, he⟩), hstop⟩

end FailsAfter

lemma expandAt_withLimit_failsAfter (c : Config) (value : Text → Option Text) (limit fuel : ℕ)
    (path : List Text) (depth : ℕ) (text : Text) :
    ((c.withLimit (some limit)).expandAt (.ofFunction value) fuel path depth text).FailsAfter
      (BeyondLimit limit) (c.EntersBeyond limit) := by
  have hmark : ∀ event, c.EntersBeyond limit event →
      ∃ depth path text, event = .enters depth path text := by
    rintro _ ⟨path, inside, h, -⟩
    exact ⟨limit + 1, path, inside, h⟩
  induction fuel generalizing path depth text with
  | zero => exact Run.failsAfter_of_trace_eq_nil rfl
  | succ fuel ih =>
    simp only [expandAt, opens_withLimit, tooDeep_withLimit, pieces_withLimit, sweep_withLimit,
      fillAt_withLimit]
    by_cases hlt : limit < depth ∧ c.opens text = true
    · rw [if_pos hlt.2, filter_limit_eq_some hlt.1]
      exact fun _ _ _ => ⟨_, rfl, text, rfl⟩
    · refine .bind ?_ fun _ => ?_
      · rintro _ hevent ⟨path', inside, rfl, ho⟩
        obtain ⟨rfl, rfl, rfl⟩ := Event.enters.inj (List.mem_singleton.1 hevent)
        exact absurd ⟨Nat.lt_succ_self limit, ho⟩ hlt
      · split
        · next ho =>
          have hle : depth ≤ limit := Nat.le_of_not_lt fun h => hlt ⟨h, ho⟩
          rw [filter_limit_eq_none (by simp) hle]
          refine sweep_failsAfter (fun key => ?_) _
          unfold fillAt
          split
          · exact Run.failsAfter_of_trace_eq_nil rfl
          · exact substitute_failsAfter hmark (ih _ _) text key
        · exact Run.failsAfter_of_trace_eq_nil rfl

/-- Where nesting has a limit, a run that may nest one level deeper than that ends. -/
lemma expandAt_ne_exhausted_of_limit (hmax : c.maxDepth = some limit) (hdepth : depth ≤ limit + 1)
    (hfuel : limit + 1 < fuel + depth) :
    (c.expandAt (.ofFunction value) fuel path depth text).outcome ≠ .exhausted := by
  induction fuel generalizing path depth text with
  | zero => omega
  | succ fuel ih =>
    intro h
    by_cases hle : depth ≤ limit
    · obtain ⟨key, -, -, -, part, -, hpart, -⟩ := exists_of_expandAt_exhausted h
      exact ih (by omega) (by omega) hpart
    · have hdeep : c.tooDeep depth = some limit := by
        rw [tooDeep, hmax, filter_limit_eq_some (by omega)]
      rw [expandAt, hdeep, Run.outcome_note_bind] at h
      split at h <;> cases h

/-- **A limit on nesting only cuts runs off.** A run with a limit ends. It goes beyond the limit, or
it is the run with any larger limit and with none, with the same end and the same steps. It goes
beyond the limit exactly if the run without a limit enters a text that holds an opener one level
deeper than the limit allows. -/
theorem limit_only_cuts_off (c : Config) (value : Text → Option Text) (text : Text) (limit : ℕ) :
    (∃ run, (c.withLimit (some limit)).Resolves (.ofFunction value) text run ∧
      ((∃ inside, run.outcome = .failed (.tooDeep limit inside)) ∨
        ∀ more : Option ℕ, (∀ m ∈ more, limit ≤ m) →
          (c.withLimit more).Resolves (.ofFunction value) text run)) ∧
    ((∃ inside, (c.withLimit (some limit)).Fails (.ofFunction value) text
        (.tooDeep limit inside)) ↔
      ∃ bound path inside, .enters (limit + 1) path inside ∈
          ((c.withLimit none).resolveWithin (.ofFunction value) bound text).trace ∧
        c.opens inside = true) := by
  have hstops {more : Option ℕ} (hmore : ∀ m ∈ more, limit ≤ m) := fun bound =>
    resolveWithin_withLimit_stopsAt c (.ofFunction value) hmore bound text
  constructor
  · have hends : ((c.withLimit (some limit)).resolveWithin (.ofFunction value) (limit + 2)
        text).outcome ≠ .exhausted := by
      rw [resolveWithin_eq]
      exact expandAt_ne_exhausted_of_limit rfl (Nat.zero_le _) (by omega)
    refine ⟨_, resolves_of_ne _ hends, or_iff_not_imp_left.2 fun hne more hmore => ?_⟩
    refine (resolves_of_ne _ hends).of_stopsAt (hstops hmore) ?_
    rintro _ he ⟨inside, rfl⟩
    exact hne ⟨inside, he⟩
  · have hafter (bound : ℕ) :
        ((c.withLimit (some limit)).resolveWithin (.ofFunction value) bound text).FailsAfter
          (BeyondLimit limit) (c.EntersBeyond limit) := by
      rw [resolveWithin_eq]
      exact expandAt_withLimit_failsAfter c value limit bound [] 0 text
    have hnever : ∀ e, (c.withLimit none).Fails (.ofFunction value) text e →
        ¬BeyondLimit limit e := by
      rintro _ ⟨_, ⟨-, bound, rfl⟩, h⟩ ⟨inside, rfl⟩
      rw [resolveWithin_eq] at h
      exact expandAt_ne_tooDeep rfl h
    have hiff := fails_iff_of_stopsAt (hstops (by simp)) hafter hnever
    constructor
    · rintro ⟨inside, h⟩
      obtain ⟨bound, _, henters, path, inside, rfl, ho⟩ := hiff.1 ⟨_, h, inside, rfl⟩
      exact ⟨bound, path, inside, henters, ho⟩
    · rintro ⟨bound, path, inside, henters, ho⟩
      obtain ⟨_, h, inside, rfl⟩ := hiff.2 ⟨bound, _, henters, path, inside, rfl, ho⟩
      exact ⟨inside, h⟩

end ConfigText.Config
