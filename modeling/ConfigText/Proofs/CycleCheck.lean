import ConfigText.Proofs.Paths
import Mathlib

/-!
The check for open keys only observes.

Beside resolving stands resolving without the check. A run that does not fail for a circular key
ends in both alike. Where nesting has no limit, a run that ends without the check ends likewise
with it: what happens below a key hangs on the key alone, so a key that is met below itself is met
below itself again, and a run that meets it never ends.
-/

namespace ConfigText.Config

variable (c : Config) (lookup : Lookup)

/-- The text with its placeholders replaced in place, where no key counts as open. -/
def expandBlind : ℕ → ℕ → Text → Run Text
  | 0, _, _ => Run.cutOff
  | fuel + 1, depth, text => do
    Run.note (.enters depth [] text)
    if c.opens text then
      match c.tooDeep depth with
      | some limit => Run.fail (.tooDeep limit text)
      | none => c.splice (c.substitute lookup (expandBlind fuel (depth + 1)) text) text 0
    else return text

/-- Without the check, resolving the text ends like this. -/
def EndsBlind (text : Text) (outcome : Outcome Text) : Prop :=
  outcome ≠ .exhausted ∧ ∃ bound, (c.expandBlind lookup bound 0 text).outcome = outcome

/-- Without the check, the nesting below the key goes deeper than the fuel. -/
def Stuck (fuel : ℕ) (key : Text) : Prop :=
  ∀ depth text,
    (c.substitute lookup (c.expandBlind lookup fuel depth) text key).outcome = .exhausted

variable {c lookup}

lemma expandBlind_continues {fuel fuel' : ℕ} (hle : fuel ≤ fuel') (depth : ℕ) (text : Text) :
    (c.expandBlind lookup fuel depth text).Continues (c.expandBlind lookup fuel' depth text) := by
  induction fuel generalizing fuel' depth text with
  | zero => exact .cutOff _
  | succ fuel ih =>
    obtain ⟨fuel', rfl⟩ := Nat.exists_eq_succ_of_ne_zero (by omega : fuel' ≠ 0)
    refine .bind (.refl _) fun _ => ?_
    split
    · split
      · rfl
      · rw [splice_zero, splice_zero]
        exact sweep_rel Run.continues (substitute_rel Run.continues (ih (by omega) _) text) _
    · rfl

/-! ### The check takes part in a run only by failing it -/

/-- The runs end alike, or the first one fails for a circular key. -/
def Agree {α : Type} (r s : Run α) : Prop :=
  r.outcome = s.outcome ∨ ∃ key, r.outcome = .failed (.circular key)

lemma Agree.bind {α β : Type} {r s : Run α} {f g : α → Run β} (h : Agree r s)
    (hn : ∀ a, Agree (f a) (g a)) : Agree (r >>= f) (s >>= g) := by
  rcases h with h | ⟨key, hk⟩
  · cases ho : r.outcome with
    | done a =>
      rw [Run.bind_of_done ho, Run.bind_of_done (h ▸ ho)]
      exact hn a
    | failed e => rw [Run.bind_of_failed ho, Run.bind_of_failed (h ▸ ho)]; exact .inl rfl
    | exhausted => rw [Run.bind_of_exhausted ho, Run.bind_of_exhausted (h ▸ ho)]; exact .inl rfl
  · rw [Run.bind_of_failed hk]
    exact .inr ⟨key, rfl⟩

def agree : Run.Simulation := ⟨Agree, fun _ => .inl rfl, .bind⟩

lemma expandAt_agree (c : Config) (lookup : Lookup) (fuel : ℕ) (path : List Text) (depth : ℕ)
    (text : Text) :
    Agree (c.expandAt lookup fuel path depth text) (c.expandBlind lookup fuel depth text) := by
  induction fuel generalizing path depth text with
  | zero => exact .inl rfl
  | succ fuel ih =>
    rw [expandAt, expandBlind]
    refine .bind (.inl rfl) fun _ => ?_
    split
    · cases c.tooDeep depth with
      | some limit => exact .inl rfl
      | none =>
        simp only [splice_zero]
        refine sweep_rel agree (fun key => ?_) _
        unfold fillAt
        split
        · exact .inr ⟨key, rfl⟩
        · exact substitute_rel agree (ih _ _) text key
    · exact .inl rfl

/-- Only the check finds a key circular. -/
lemma expandBlind_not_circular {value : Text → Option Text} (fuel depth : ℕ) (text key : Text) :
    (c.expandBlind (.ofFunction value) fuel depth text).outcome ≠ .failed (.circular key) := by
  induction fuel generalizing depth text with
  | zero => simp [expandBlind]
  | succ fuel ih =>
    intro h
    rw [expandBlind, Run.outcome_note_bind] at h
    split at h
    · cases hd : c.tooDeep depth with
      | some limit => simp [hd] at h
      | none =>
        simp only [hd, splice_zero] at h
        obtain ⟨k, -, hk⟩ := exists_of_sweep_failed h
        rcases substitute_failed.1 hk with ⟨part, -, hk⟩ | ⟨name, -, -, -, hk⟩
        · exact ih _ _ hk
        · cases hk
    · cases h

/-! ### Keys that are stuck -/

lemma Stuck.mono {fuel fuel' : ℕ} {key : Text} (h : c.Stuck lookup fuel' key)
    (hle : fuel ≤ fuel') : c.Stuck lookup fuel key := by
  intro depth text
  by_contra hne
  have heq := (substitute_rel Run.continues (expandBlind_continues hle depth) text key).eq hne
  exact hne (heq ▸ h depth text)

lemma stuck_zero (key : Text) : c.Stuck lookup 0 key := fun _ _ => rfl

/-- A key whose nesting ends is stuck up to some fuel and no further. -/
lemma exists_stuck_of_not_stuck {fuel : ℕ} {key : Text} (h : ¬c.Stuck lookup fuel key) :
    ∃ m, m + 1 ≤ fuel ∧ c.Stuck lookup m key ∧ ¬c.Stuck lookup (m + 1) key := by
  induction fuel with
  | zero => exact absurd (stuck_zero key) h
  | succ n ih =>
    by_cases hn : c.Stuck lookup n key
    · exact ⟨n, le_rfl, hn, h⟩
    · obtain ⟨m, hm, hs⟩ := ih hn
      exact ⟨m, by omega, hs⟩

/-! ### Without a limit on nesting -/

section Unlimited

variable (hmax : c.maxDepth = none)
include hmax

lemma expandBlind_succ (fuel depth : ℕ) (text : Text) :
    c.expandBlind lookup (fuel + 1) depth text =
      Run.note (.enters depth [] text) >>= fun _ =>
        c.sweep (c.substitute lookup (c.expandBlind lookup fuel (depth + 1)) text)
          (c.pieces text) := by
  rw [expandBlind, tooDeep_eq_none hmax, splice_zero]
  refine bind_congr fun _ => ?_
  split
  · rfl
  · next ho =>
    have hcut : Text.cut c.opener text = none := by simpa [opens, Text.has] using ho
    rw [c.pieces_of_cut_none hcut, sweep_only_chars]

/-- How deep a text lies does not matter for how its run ends. -/
lemma expandBlind_endsAs_depth (fuel depth depth' : ℕ) (text : Text) :
    (c.expandBlind lookup fuel depth text).EndsAs (c.expandBlind lookup fuel depth' text) := by
  induction fuel generalizing depth depth' text with
  | zero => exact fun h => absurd rfl h
  | succ fuel ih =>
    rw [expandBlind_succ hmax, expandBlind_succ hmax]
    refine Run.EndsAs.bind (fun _ => rfl) fun _ => ?_
    exact sweep_rel Run.endsAs (substitute_rel Run.endsAs (ih _ _) text) _

/-- Whether the run of a placeholder ends hangs on its key alone. -/
lemma ne_exhausted_of_not_stuck {fuel : ℕ} {key : Text} (h : ¬c.Stuck lookup fuel key)
    (depth : ℕ) (text : Text) :
    (c.substitute lookup (c.expandBlind lookup fuel depth) text key).outcome ≠ .exhausted := by
  simp only [Stuck, not_forall] at h
  obtain ⟨depth', text', hne⟩ := h
  have hdepth := substitute_rel Run.endsAs (expandBlind_endsAs_depth hmax fuel depth' depth)
    text' key hne
  intro he
  exact hne (hdepth ▸ (substitute_alike _ text text' key).exhausted he)

/-- A run that ends without the check ends likewise with it, if the nesting below each open key
goes deeper than what the run may nest. -/
lemma expandBlind_endsAs (fuel : ℕ) (path : List Text) (depth : ℕ) (text : Text)
    (hstuck : ∀ n, fuel = n + 1 → ∀ key ∈ path, c.Stuck lookup n key) :
    (c.expandBlind lookup fuel depth text).EndsAs (c.expandAt lookup fuel path depth text) := by
  induction fuel using Nat.strong_induction_on generalizing path depth text with
  | _ fuel ih =>
  cases fuel with
  | zero => exact fun h => absurd rfl h
  | succ n =>
    rw [expandBlind_succ hmax, expandAt_succ (tooDeep_eq_none hmax depth)]
    refine Run.EndsAs.bind (fun _ => rfl) fun _ => ?_
    refine sweep_rel Run.endsAs (fun key hne => ?_) _
    have hkey : ¬c.Stuck lookup n key := fun hs => hne (hs _ _)
    have hmem : key ∉ path := fun hm => hkey (hstuck n rfl key hm)
    rw [fillAt, if_neg hmem]
    -- below the key it is stuck itself, as all keys above it are
    obtain ⟨m, hle, hs, hns⟩ := exists_stuck_of_not_stuck hkey
    have hbelow (text : Text) : (c.expandBlind lookup (m + 1) (depth + 1) text).EndsAs
        (c.expandAt lookup (m + 1) (key :: path) (depth + 1) text) := by
      refine ih (m + 1) (by omega) _ _ _ fun m' hm' q hq => ?_
      obtain rfl : m = m' := by omega
      rcases List.mem_cons.1 hq with rfl | hq
      · exact hs
      · exact (hstuck n rfl q hq).mono (by omega)
    have hends := ne_exhausted_of_not_stuck hmax hns (depth + 1) text
    have hsub := substitute_rel Run.endsAs hbelow text key hends
    have hblind := (substitute_rel Run.continues (expandBlind_continues hle (depth + 1)) text
      key).eq hends
    have hat := (substitute_rel Run.continues (expandAt_continues hle (key :: path) (depth + 1))
      text key).eq (hsub ▸ hends)
    rw [← hat, ← hblind, hsub]

end Unlimited

/-- **The check for open keys only observes.** A text that returns, has a key without a value or
nests beyond the limit does so without the check too. Where nesting has no limit, a text that ends
in any way without the check ends in that way with it, so that a text that fails for a circular
key would never end. -/
theorem cycle_check_observes (c : Config) (value : Text → Option Text) (text : Text) :
    (∀ outcome, c.Ends (.ofFunction value) text outcome →
      (∀ key, outcome ≠ .failed (.circular key)) → c.EndsBlind (.ofFunction value) text outcome) ∧
    (c.maxDepth = none →
      (∀ outcome, c.EndsBlind (.ofFunction value) text outcome →
        c.Ends (.ofFunction value) text outcome) ∧
      ∀ key, c.Ends (.ofFunction value) text (.failed (.circular key)) →
        ∀ outcome, ¬c.EndsBlind (.ofFunction value) text outcome) := by
  refine ⟨?_, fun hmax => ?_⟩
  · rintro _ ⟨_, ⟨hne, bound, rfl⟩, rfl⟩ hcircular
    refine ⟨hne, bound, ?_⟩
    rw [resolveWithin_eq] at hcircular ⊢
    obtain h | ⟨key, hk⟩ := expandAt_agree c _ bound [] 0 text
    · exact h.symm
    · exact absurd hk (hcircular key)
  · have hends : ∀ outcome, c.EndsBlind (.ofFunction value) text outcome →
        c.Ends (.ofFunction value) text outcome := by
      rintro _ ⟨hne, bound, rfl⟩
      have h := expandBlind_endsAs hmax bound [] 0 text (by simp) hne
      rw [← resolveWithin_eq] at h
      exact ⟨_, resolves_of_ne bound (h ▸ hne), h⟩
    refine ⟨hends, fun key hk outcome hblind => ?_⟩
    obtain rfl := hk.unique (hends outcome hblind)
    obtain ⟨-, bound, hb⟩ := hblind
    exact expandBlind_not_circular bound 0 text key hb

end ConfigText.Config
