import ConfigText.Run
import Mathlib

/-!
What a composed run ends with and notes, in terms of its parts, and the order in which a run that
was cut off comes before one that goes on.
-/

namespace ConfigText.Run

variable {α β : Type} {run r s : Run α} {next f g : α → Run β}

/-! ### Ends -/

@[simp] lemma outcome_pure (a : α) : (Pure.pure a : Run α).outcome = .done a := rfl
@[simp] lemma trace_pure (a : α) : (Pure.pure a : Run α).trace = [] := rfl
@[simp] lemma outcome_note (e : Event) : (note e).outcome = .done () := rfl
@[simp] lemma trace_note (e : Event) : (note e).trace = [e] := rfl
@[simp] lemma outcome_fail (e : Failure) : (fail e : Run α).outcome = .failed e := rfl
@[simp] lemma trace_fail (e : Failure) : (fail e : Run α).trace = [] := rfl
@[simp] lemma outcome_cutOff : (cutOff : Run α).outcome = .exhausted := rfl
@[simp] lemma trace_cutOff : (cutOff : Run α).trace = [] := rfl
@[simp] lemma outcome_ofOutcome (o : Outcome α) : (ofOutcome o).outcome = o := rfl
@[simp] lemma trace_ofOutcome (o : Outcome α) : (ofOutcome o).trace = [] := rfl

@[simp] lemma fail_bind_eq (e : Failure) : (fail e >>= next) = fail e := rfl

@[simp] lemma map_fail (e : Failure) (h : α → β) : h <$> (fail e : Run α) = fail e := rfl

lemma bind_of_done {a : α} (h : run.outcome = .done a) :
    run >>= next = ⟨run.trace ++ (next a).trace, (next a).outcome⟩ := by
  change run.bind next = _
  simp only [Run.bind, h]

@[simp] lemma outcome_note_bind (e : Event) (k : Unit → Run β) :
    (note e >>= k).outcome = (k ()).outcome := rfl

@[simp] lemma outcome_map_note (e : Event) (k : Unit → β) :
    (k <$> note e).outcome = .done (k ()) := rfl

lemma bind_of_failed {e : Failure} (h : run.outcome = .failed e) :
    run >>= next = ⟨run.trace, .failed e⟩ := by
  change run.bind next = _
  simp only [Run.bind, h]

lemma bind_of_exhausted (h : run.outcome = .exhausted) :
    run >>= next = ⟨run.trace, .exhausted⟩ := by
  change run.bind next = _
  simp only [Run.bind, h]

lemma outcome_bind_done {b : β} :
    (run >>= next).outcome = .done b ↔
      ∃ a, run.outcome = .done a ∧ (next a).outcome = .done b := by
  cases h : run.outcome with
  | done a => simp [bind_of_done h]
  | failed e => simp [bind_of_failed h]
  | exhausted => simp [bind_of_exhausted h]

lemma outcome_bind_failed {e : Failure} :
    (run >>= next).outcome = .failed e ↔
      run.outcome = .failed e ∨ ∃ a, run.outcome = .done a ∧ (next a).outcome = .failed e := by
  cases h : run.outcome with
  | done a => simp [bind_of_done h]
  | failed e' => simp [bind_of_failed h]
  | exhausted => simp [bind_of_exhausted h]

lemma outcome_bind_exhausted :
    (run >>= next).outcome = .exhausted ↔
      run.outcome = .exhausted ∨
        ∃ a, run.outcome = .done a ∧ (next a).outcome = .exhausted := by
  cases h : run.outcome with
  | done a => simp [bind_of_done h]
  | failed e => simp [bind_of_failed h]
  | exhausted => simp [bind_of_exhausted h]

lemma mem_trace_bind {e : Event} :
    e ∈ (run >>= next).trace ↔
      e ∈ run.trace ∨ ∃ a, run.outcome = .done a ∧ e ∈ (next a).trace := by
  cases h : run.outcome with
  | done a => simp [bind_of_done h]
  | failed e' => simp [bind_of_failed h]
  | exhausted => simp [bind_of_exhausted h]

lemma prefix_trace_bind (r : Run α) (f : α → Run β) : r.trace <+: (r >>= f).trace := by
  cases ho : r.outcome with
  | done a => rw [bind_of_done ho]; exact List.prefix_append _ _
  | failed e => rw [bind_of_failed ho]
  | exhausted => rw [bind_of_exhausted ho]

@[simp] lemma trace_map (h : α → β) : (h <$> run).trace = run.trace := by
  rw [← bind_pure_comp]
  cases ho : run.outcome with
  | done a => simp [bind_of_done ho]
  | failed e => simp [bind_of_failed ho]
  | exhausted => simp [bind_of_exhausted ho]

lemma outcome_map_done {h : α → β} {b : β} :
    (h <$> run).outcome = .done b ↔ ∃ a, run.outcome = .done a ∧ h a = b := by
  rw [← bind_pure_comp, outcome_bind_done]
  simp

@[simp] lemma outcome_map_failed {h : α → β} {e : Failure} :
    (h <$> run).outcome = .failed e ↔ run.outcome = .failed e := by
  rw [← bind_pure_comp, outcome_bind_failed]
  simp

@[simp] lemma outcome_map_exhausted {h : α → β} :
    (h <$> run).outcome = .exhausted ↔ run.outcome = .exhausted := by
  rw [← bind_pure_comp, outcome_bind_exhausted]
  simp

lemma asked_bind_of_done {a : α} (h : run.outcome = .done a) :
    (run >>= next).asked = run.asked ++ (next a).asked := by
  simp [bind_of_done h, asked]

@[simp] lemma asked_map (h : α → β) : (h <$> run).asked = run.asked := by
  simp [asked]

/-! ### Relations that composing respects -/

/-- A relation between runs that holds of composed runs if it holds of their parts. -/
structure Simulation where
  Rel : {α : Type} → Run α → Run α → Prop
  refl : ∀ {α : Type} (r : Run α), Rel r r
  bind : ∀ {α β : Type} {r s : Run α} {f g : α → Run β},
    Rel r s → (∀ a, Rel (f a) (g a)) → Rel (r >>= f) (s >>= g)

lemma Simulation.map (sim : Simulation) (h : sim.Rel r s) (k : α → β) :
    sim.Rel (k <$> r) (k <$> s) := by
  rw [← bind_pure_comp, ← bind_pure_comp]
  exact sim.bind h fun _ => sim.refl _

/-- `s` is the run `r`, or goes on where `r` was cut off. -/
def Continues (r s : Run α) : Prop :=
  r = s ∨ r.outcome = .exhausted ∧ r.trace <+: s.trace

namespace Continues

@[refl] lemma refl (r : Run α) : r.Continues r := .inl rfl

lemma cutOff (s : Run α) : Run.cutOff.Continues s := .inr ⟨rfl, List.nil_prefix⟩

lemma eq (h : r.Continues s) (hr : r.outcome ≠ .exhausted) : r = s :=
  h.resolve_right fun ⟨he, _⟩ => hr he

lemma trace (h : r.Continues s) : r.trace <+: s.trace := by
  rcases h with rfl | ⟨-, h⟩
  · exact List.prefix_rfl
  · exact h

lemma bind (h : r.Continues s) (hn : ∀ a, (f a).Continues (g a)) :
    (r >>= f).Continues (s >>= g) := by
  rcases h with rfl | ⟨he, ht⟩
  · cases ho : r.outcome with
    | done a =>
      rw [bind_of_done ho, bind_of_done ho]
      rcases hn a with hfg | ⟨he, ht⟩
      · rw [hfg]
      · exact .inr ⟨he, (List.prefix_append_right_inj _).2 ht⟩
    | failed e => rw [bind_of_failed ho, bind_of_failed ho]
    | exhausted => rw [bind_of_exhausted ho, bind_of_exhausted ho]
  · refine .inr ⟨outcome_bind_exhausted.2 (.inl he), ?_⟩
    rw [bind_of_exhausted he]
    exact ht.trans (prefix_trace_bind s g)

end Continues

def continues : Simulation := ⟨Continues, .refl, .bind⟩

/-- `s` is the run `r`, or goes on where `r` failed in one of the ways of `stop`, and has then noted
one of the events of `mark`. -/
def StopsAt (stop : Failure → Prop) (mark : Event → Prop) (r s : Run α) : Prop :=
  r = s ∨
    (∃ e, r.outcome = .failed e ∧ stop e) ∧ r.trace <+: s.trace ∧ ∃ event ∈ s.trace, mark event

/-- Where one of the events of `mark` is noted, the run fails in one of the ways of `stop`. -/
def FailsAfter (stop : Failure → Prop) (mark : Event → Prop) (r : Run α) : Prop :=
  ∀ event ∈ r.trace, mark event → ∃ e, r.outcome = .failed e ∧ stop e

section Stopping

variable {stop : Failure → Prop} {mark : Event → Prop}

lemma StopsAt.bind (h : r.StopsAt stop mark s) (hn : ∀ a, (f a).StopsAt stop mark (g a)) :
    (r >>= f).StopsAt stop mark (s >>= g) := by
  rcases h with rfl | ⟨⟨e, he, hstop⟩, htrace, event, hevent, hmark⟩
  · cases ho : r.outcome with
    | done a =>
      rw [bind_of_done ho, bind_of_done ho]
      rcases hn a with hfg | ⟨hfail, htrace, event, hevent, hmark⟩
      · rw [hfg]
        exact .inl rfl
      · exact .inr ⟨hfail, (List.prefix_append_right_inj _).2 htrace, event,
          List.mem_append_right _ hevent, hmark⟩
    | failed e => rw [bind_of_failed ho, bind_of_failed ho]; exact .inl rfl
    | exhausted => rw [bind_of_exhausted ho, bind_of_exhausted ho]; exact .inl rfl
  · have hbind := prefix_trace_bind s g
    rw [bind_of_failed he]
    exact .inr ⟨⟨e, rfl, hstop⟩, htrace.trans hbind, event, hbind.subset hevent, hmark⟩

def stopsAt (stop : Failure → Prop) (mark : Event → Prop) : Simulation :=
  ⟨StopsAt stop mark, fun _ => .inl rfl, .bind⟩

/-- The event at which the first run stops may be the first step of both. -/
lemma stopsAt_note_fail {event : Event} {e : Failure} (hmark : mark event) (hstop : stop e)
    (next : Unit → Run β) :
    (note event >>= fun _ => fail e).StopsAt stop mark (note event >>= next) := by
  have htrace : [event] <+: (note event >>= next).trace := prefix_trace_bind (note event) next
  exact .inr ⟨⟨e, rfl, hstop⟩, htrace, event, htrace.subset List.mem_cons_self, hmark⟩

lemma StopsAt.eq (h : r.StopsAt stop mark s) (hr : ∀ e, r.outcome = .failed e → ¬stop e) :
    r = s := by
  rcases h with rfl | ⟨⟨e, he, hstop⟩, -⟩
  · rfl
  · exact absurd hstop (hr e he)

/-- The first run fails like that exactly if the second one, which does not, notes such an event. -/
lemma StopsAt.stop_iff (h : r.StopsAt stop mark s) (hr : r.FailsAfter stop mark)
    (hs : ∀ e, s.outcome = .failed e → ¬stop e) :
    (∃ e, r.outcome = .failed e ∧ stop e) ↔ ∃ event ∈ s.trace, mark event := by
  rcases h with rfl | ⟨hfail, -, hmark⟩
  · constructor
    · rintro ⟨e, he, hstop⟩
      exact absurd hstop (hs e he)
    · rintro ⟨event, hevent, hmark⟩
      exact hr event hevent hmark
  · exact ⟨fun _ => hmark, fun _ => hfail⟩

lemma FailsAfter.bind (h : r.FailsAfter stop mark) (hn : ∀ a, (f a).FailsAfter stop mark) :
    (r >>= f).FailsAfter stop mark := by
  intro event hevent hmark
  obtain hevent | ⟨a, ha, hevent⟩ := mem_trace_bind.1 hevent
  · obtain ⟨e, he, hstop⟩ := h event hevent hmark
    exact ⟨e, outcome_bind_failed.2 (.inl he), hstop⟩
  · obtain ⟨e, he, hstop⟩ := hn a event hevent hmark
    exact ⟨e, outcome_bind_failed.2 (.inr ⟨a, ha, he⟩), hstop⟩

/-- A run without such an event. -/
lemma failsAfter_of_forall (h : ∀ event ∈ r.trace, ¬mark event) : r.FailsAfter stop mark :=
  fun event hevent hmark => absurd hmark (h event hevent)

/-- A run without any step. -/
lemma failsAfter_of_trace_eq_nil (h : r.trace = []) : r.FailsAfter stop mark :=
  failsAfter_of_forall fun _ hevent => absurd (h ▸ hevent) List.not_mem_nil

end Stopping

/-- If `r` ends, `s` ends likewise. -/
def EndsAs (r s : Run α) : Prop := r.outcome ≠ .exhausted → s.outcome = r.outcome

lemma EndsAs.bind (h : r.EndsAs s) (hn : ∀ a, (f a).EndsAs (g a)) :
    (r >>= f).EndsAs (s >>= g) := by
  intro hne
  cases ho : r.outcome with
  | done a =>
    have hs : s.outcome = .done a := by rw [h (by simp [ho]), ho]
    rw [bind_of_done ho] at hne ⊢
    rw [bind_of_done hs]
    exact hn a hne
  | failed e =>
    have hs : s.outcome = .failed e := by rw [h (by simp [ho]), ho]
    rw [bind_of_failed ho, bind_of_failed hs]
  | exhausted => exact absurd (outcome_bind_exhausted.2 (.inl ho)) hne

def endsAs : Simulation := ⟨EndsAs, fun _ _ => rfl, .bind⟩

/-- If `r` returns, `s` returns the same. -/
def ReturnsAs (r s : Run α) : Prop := ∀ a, r.outcome = .done a → s.outcome = .done a

lemma ReturnsAs.bind (h : r.ReturnsAs s) (hn : ∀ a, (f a).ReturnsAs (g a)) :
    (r >>= f).ReturnsAs (s >>= g) := by
  intro b hb
  obtain ⟨a, ha, hb⟩ := outcome_bind_done.1 hb
  exact outcome_bind_done.2 ⟨a, h a ha, hn a b hb⟩

def returnsAs : Simulation := ⟨ReturnsAs, fun _ _ h => h, .bind⟩

/-- If `r` returns, `s` is the same run. -/
def RepeatedBy (r s : Run α) : Prop := ∀ a, r.outcome = .done a → s = r

lemma RepeatedBy.bind (h : r.RepeatedBy s) (hn : ∀ a, (f a).RepeatedBy (g a)) :
    (r >>= f).RepeatedBy (s >>= g) := by
  intro b hb
  obtain ⟨a, ha, hfb⟩ := outcome_bind_done.1 hb
  have hfirst : s = r := h a ha
  have hnext : g a = f a := hn a b hfb
  rw [hfirst, bind_of_done ha, bind_of_done ha, hnext]

def repeatedBy : Simulation := ⟨RepeatedBy, fun _ _ _ => rfl, .bind⟩

/-- If all that `r` asks for is good, `s` is the same run. -/
def SameIf (good : Text → Prop) (r s : Run α) : Prop :=
  (∀ name, .asks name ∈ r.trace → good name) → r = s

lemma SameIf.bind {good : Text → Prop} (h : r.SameIf good s) (hn : ∀ a, (f a).SameIf good (g a)) :
    (r >>= f).SameIf good (s >>= g) := by
  intro hgood
  obtain rfl : r = s := h fun name hname => hgood name ((prefix_trace_bind r f).subset hname)
  cases ho : r.outcome with
  | done a =>
    have hnext : f a = g a :=
      hn a fun name hname => hgood name (mem_trace_bind.2 (.inr ⟨a, ho, hname⟩))
    rw [bind_of_done ho, bind_of_done ho, hnext]
  | failed e => rw [bind_of_failed ho, bind_of_failed ho]
  | exhausted => rw [bind_of_exhausted ho, bind_of_exhausted ho]

def sameIf (good : Text → Prop) : Simulation := ⟨SameIf good, fun _ _ => rfl, .bind⟩

end ConfigText.Run

namespace ConfigText

/-- What a failure is about, whatever text it arose in. -/
inductive Cause
  | circular (key : Text)
  | unresolvable (key : Text)
  | tooDeep (limit : ℕ)

def Failure.cause : Failure → Cause
  | .circular key => .circular key
  | .unresolvable key _ => .unresolvable key
  | .tooDeep limit _ => .tooDeep limit

namespace Run

variable {α β : Type} {r s : Run α} {f g : α → Run β}

/-- The runs do the same; if they fail then for the same cause. -/
def Alike (r s : Run α) : Prop :=
  r.trace = s.trace ∧ (r.outcome = s.outcome ∨
    ∃ e e', r.outcome = .failed e ∧ s.outcome = .failed e' ∧ e.cause = e'.cause)

namespace Alike

lemma refl (r : Run α) : r.Alike r := ⟨rfl, .inl rfl⟩

lemma done {a : α} (h : r.Alike s) (hr : r.outcome = .done a) : s.outcome = .done a := by
  obtain ⟨-, h | ⟨e, _, he, -⟩⟩ := h
  · rw [← h, hr]
  · rw [hr] at he; cases he

lemma failed {e : Failure} (h : r.Alike s) (hr : r.outcome = .failed e) :
    ∃ e', s.outcome = .failed e' ∧ e'.cause = e.cause := by
  obtain ⟨-, h | ⟨e₁, e₂, h₁, h₂, hc⟩⟩ := h
  · exact ⟨e, by rw [← h, hr], rfl⟩
  · obtain rfl : e = e₁ := by simpa [hr] using h₁
    exact ⟨e₂, h₂, hc.symm⟩

lemma exhausted (h : r.Alike s) (hr : r.outcome = .exhausted) : s.outcome = .exhausted := by
  obtain ⟨-, h | ⟨e, _, he, -⟩⟩ := h
  · rw [← h, hr]
  · rw [hr] at he; cases he

lemma bind_left (r : Run α) (h : ∀ a, (f a).Alike (g a)) : (r >>= f).Alike (r >>= g) := by
  cases ho : r.outcome with
  | done a =>
    rw [bind_of_done ho, bind_of_done ho]
    exact ⟨congrArg (r.trace ++ ·) (h a).1, (h a).2⟩
  | failed e => rw [bind_of_failed ho, bind_of_failed ho]; exact refl _
  | exhausted => rw [bind_of_exhausted ho, bind_of_exhausted ho]; exact refl _

end Alike
end Run
end ConfigText
