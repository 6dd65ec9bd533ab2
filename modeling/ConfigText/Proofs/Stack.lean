import ConfigText.Proofs.Oracles
import Mathlib

/-!
The set of open keys along a run.

There is one such set for a whole run. The keys and the values are gone through with it, and so is
each placeholder after the one in front of it, so it has to be left as it was found. What a run
notes is read with a stack: a placeholder that is opened is put on it together with the text that it
stands in, and the one that is closed has to be the last one. Every step of a run fits the stack,
whatever the values are. So at each call the set holds the keys on the stack, which differ, and
there are as many of them as the call lies deep.
-/

namespace ConfigText

/-- A placeholder that is open. -/
structure Frame where
  key : Text
  /-- The text that it stands in. -/
  text : Text

/-- Where a run is. -/
structure Stack where
  /-- The placeholders that are open, the innermost first. -/
  frames : List Frame
  /-- The text that is gone through. -/
  text : Text

namespace Stack

def keys (s : Stack) : List Text := s.frames.map Frame.key

/-- The stack after an event. With a placeholder that is closed the run is back in the text that it
stands in. -/
def after (s : Stack) : Event → Stack
  | .enters _ _ text => ⟨s.frames, text⟩
  | .opens key => ⟨⟨key, s.text⟩ :: s.frames, s.text⟩
  | .closes _ =>
    match s.frames with
    | [] => s
    | frame :: frames => ⟨frames, frame.text⟩
  | .asks _ | .fills _ | .keeps _ => s

/-- The stack after events one after the other. -/
def afterAll (s : Stack) (trace : List Event) : Stack := trace.foldl after s

/-- An event that may come next: a call with the keys on the stack as the set of open keys, at the
depth of their number, a placeholder of the text that is opened anew, or the last one that is
closed. -/
def Admits (c : Config) (s : Stack) : Event → Prop
  | .enters depth visited _ => visited = s.keys ∧ depth = s.keys.length
  | .opens key => key ∉ s.keys ∧ .hole key ∈ c.pieces s.text
  | .closes key => s.keys.head? = some key
  | .asks _ | .fills _ | .keeps _ => True

/-- Events that may come one after the other. -/
def Follows (c : Config) : Stack → List Event → Prop
  | _, [] => True
  | s, event :: more => s.Admits c event ∧ Follows c (s.after event) more

variable {c : Config} {s : Stack} {event : Event} {before more trace : List Event}

@[simp] lemma afterAll_append (s : Stack) (before more : List Event) :
    s.afterAll (before ++ more) = (s.afterAll before).afterAll more :=
  List.foldl_append

lemma follows_append :
    s.Follows c (before ++ more) ↔ s.Follows c before ∧ (s.afterAll before).Follows c more := by
  induction before generalizing s with
  | nil => simp [Follows, afterAll]
  | cons event before ih =>
    rw [List.cons_append, Follows, Follows, ih, and_assoc]
    rfl

lemma Follows.admits (h : s.Follows c (before ++ event :: more)) :
    (s.afterAll before).Admits c event :=
  (follows_append.1 h).2.1

/-! ### What a step keeps -/

/-- The keys stay different, as only new ones are opened. -/
lemma Admits.nodup_after (h : s.Admits c event) (hs : s.keys.Nodup) :
    (s.after event).keys.Nodup := by
  cases event with
  | opens key => exact List.nodup_cons.2 ⟨h.1, hs⟩
  | closes key =>
    obtain ⟨_ | ⟨frame, frames⟩, text⟩ := s
    · exact hs
    · exact (List.nodup_cons.1 hs).2
  | _ => exact hs

lemma Follows.nodup_afterAll (h : s.Follows c trace) (hs : s.keys.Nodup) :
    (s.afterAll trace).keys.Nodup := by
  induction trace generalizing s with
  | nil => exact hs
  | cons event more ih => exact ih h.2 (h.1.nodup_after hs)

end Stack

/-- The set of open keys after an event, as opening and closing change it. -/
def Event.change (visited : List Text) : Event → List Text
  | .opens key => key :: visited
  | .closes key => visited.erase key
  | _ => visited

namespace Stack

variable {c : Config} {s : Stack} {event : Event} {before more trace : List Event}

/-- Taking a key out of the set takes its placeholder off the stack. -/
lemma Admits.change_eq (h : s.Admits c event) : event.change s.keys = (s.after event).keys := by
  cases event with
  | closes key =>
    obtain ⟨_ | ⟨frame, frames⟩, text⟩ := s
    · cases h
    · obtain rfl : frame.key = key := Option.some.inj h
      exact List.erase_cons_head _ _
  | _ => rfl

lemma Follows.changes_eq (h : s.Follows c trace) :
    trace.foldl Event.change s.keys = (s.afterAll trace).keys := by
  induction trace generalizing s with
  | nil => rfl
  | cons event more ih =>
    rw [List.foldl_cons, h.1.change_eq]
    exact ih h.2

end Stack

/-! ### Computations along the stack -/

variable {α β σ : Type} {c : Config} {s s' s'' : Stack}

/-- From one stack the run notes what may come next, and where it returns the stack is another one
and the set of open keys holds what is on that. -/
structure Run.Leads (c : Config) (s : Stack) (run : Run (α × List Text)) (s' : Stack) : Prop where
  follows : s.Follows c run.trace
  returns : ∀ a visited, run.outcome = .done (a, visited) →
    visited = s'.keys ∧ s.afterAll run.trace = s'

namespace Run.Leads

lemma bind {run : Run (α × List Text)} {next : α × List Text → Run (β × List Text)}
    (h : run.Leads c s s') (hn : ∀ a, (next (a, s'.keys)).Leads c s' s'') :
    (run >>= next).Leads c s s'' := by
  cases ho : run.outcome with
  | done result =>
    obtain ⟨a, visited⟩ := result
    obtain ⟨rfl, hafter⟩ := h.returns a visited ho
    obtain ⟨hfollows, hreturns⟩ := hn a
    rw [bind_of_done ho]
    refine ⟨Stack.follows_append.2 ⟨h.follows, hafter.symm ▸ hfollows⟩, fun b visited hb => ?_⟩
    obtain ⟨hvisited, hrest⟩ := hreturns b visited hb
    exact ⟨hvisited, by rw [Stack.afterAll_append, hafter, hrest]⟩
  | failed failure =>
    rw [bind_of_failed ho]
    exact ⟨h.follows, nofun⟩
  | exhausted =>
    rw [bind_of_exhausted ho]
    exact ⟨h.follows, nofun⟩

lemma pure (a : α) : (Pure.pure (a, s.keys) : Run (α × List Text)).Leads c s s where
  follows := trivial
  returns _ _ h := by
    cases h
    exact ⟨rfl, rfl⟩

/-- A run that does not return, and that has not done anything. -/
lemma of_not_done {run : Run (α × List Text)} (htrace : run.trace = [])
    (h : ∀ result, run.outcome ≠ .done result) : run.Leads c s s' where
  follows := by
    rw [htrace]
    trivial
  returns a visited ha := absurd ha (h _)

end Run.Leads

namespace Tracked

/-- The computation leads along the stack, where the set of open keys holds what is on it. -/
def Leads (c : Config) (s : Stack) (x : Tracked α) (s' : Stack) : Prop :=
  (x.run s.keys).Leads c s s'

lemma Leads.bind {x : Tracked α} {f : α → Tracked β} (h : Leads c s x s')
    (hn : ∀ a, Leads c s' (f a) s'') : Leads c s (x >>= f) s'' := by
  rw [Leads, StateT.run_bind]
  exact Run.Leads.bind h hn

lemma leads_pure (a : α) : Leads c s (pure a : Tracked α) s := Run.Leads.pure a

lemma leads_get_bind {f : List Text → Tracked β} (h : Leads c s (f s.keys) s') :
    Leads c s (get >>= f) s' := by
  rw [Leads, StateT.run_bind, StateT.run_get, pure_bind]
  exact h

lemma leads_fail (failure : Failure) : Leads c s (liftM (Run.fail failure) : Tracked α) s' :=
  Run.Leads.of_not_done rfl nofun

lemma leads_cutOff : Leads c s (liftM Run.cutOff : Tracked α) s' :=
  Run.Leads.of_not_done rfl nofun

/-- An event that may come next and opens and closes nothing. -/
lemma leads_note {event : Event} (h : s.Admits c event) (hkeys : (s.after event).keys = s.keys) :
    Leads c s (liftM (Run.note event) : Tracked Unit) (s.after event) where
  follows := ⟨h, trivial⟩
  returns _ visited hdone := by
    obtain rfl : s.keys = visited := (Prod.mk.inj (Outcome.done.inj hdone)).2
    exact ⟨hkeys.symm, rfl⟩

/-- Asking for values moves nothing on the stack. -/
lemma leads_run {run : Run α} (h : ∀ event ∈ run.trace, ∃ name, event = .asks name) :
    Leads c s (liftM run : Tracked α) s := by
  have hlift : (liftM run : Tracked α).run s.keys = (·, s.keys) <$> run := by simp
  have hstay : s.Follows c run.trace ∧ s.afterAll run.trace = s := by
    generalize run.trace = trace at h
    induction trace with
    | nil => exact ⟨trivial, rfl⟩
    | cons event more ih =>
      obtain ⟨name, rfl⟩ := h event List.mem_cons_self
      obtain ⟨hfollows, hafter⟩ := ih fun event he => h event (List.mem_cons_of_mem _ he)
      exact ⟨⟨trivial, hfollows⟩, hafter⟩
  rw [Leads, hlift]
  refine ⟨by rw [Run.trace_map]; exact hstay.1, fun a visited hdone => ?_⟩
  obtain ⟨a, -, heq⟩ := Run.outcome_map_done.1 hdone
  rw [Run.trace_map]
  exact ⟨(Prod.mk.inj heq).2.symm, hstay.2⟩

lemma leads_openKey {key : Text} (h : .hole key ∈ c.pieces s.text) :
    Leads c s (Config.openKey key) ⟨⟨key, s.text⟩ :: s.frames, s.text⟩ := by
  rw [Leads, Config.openKey_run]
  split
  · exact .of_not_done rfl nofun
  · next hnew =>
    exact ⟨⟨⟨hnew, h⟩, trivial⟩, fun _ visited hdone => by
      obtain rfl : key :: s.keys = visited := (Prod.mk.inj (Outcome.done.inj hdone)).2
      exact ⟨rfl, rfl⟩⟩

lemma leads_closeKey (frame : Frame) (frames : List Frame) (text : Text) :
    Leads c ⟨frame :: frames, text⟩ (Config.closeKey frame.key) ⟨frames, frame.text⟩ := by
  change ((Config.closeKey frame.key).run (frame.key :: frames.map Frame.key)).Leads c _ _
  rw [Config.closeKey_run]
  exact ⟨⟨rfl, trivial⟩, fun _ visited hdone => by
    obtain rfl : frames.map Frame.key = visited := (Prod.mk.inj (Outcome.done.inj hdone)).2
    exact ⟨rfl, rfl⟩⟩

end Tracked

namespace Config

variable {lookup : Lookup} {text key : Text}

/-- Whichever way a placeholder ends, if it returns then the last key that has been opened is the
one that it closes. -/
lemma leads_fill {expand : Text → Tracked Text} (hkey : .hole key ∈ c.pieces s.text)
    (h : ∀ (t : Stack) (text : Text), t.keys.length = s.keys.length + 1 →
      Tracked.Leads c t (expand text) ⟨t.frames, text⟩) :
    Tracked.Leads c s (c.fill lookup expand text key) s := by
  have hbelow (t : Text) (text : Text) :
      Tracked.Leads c ⟨⟨key, s.text⟩ :: s.frames, t⟩ (expand text)
        ⟨⟨key, s.text⟩ :: s.frames, text⟩ :=
    h _ text (by simp [Stack.keys])
  refine .bind (Tracked.leads_openKey hkey) fun _ => .bind (hbelow _ key) fun name => ?_
  refine .bind (Tracked.leads_run fun _ => asks_of_mem_trace_valueOf) fun found => ?_
  cases found with
  | some value =>
    refine .bind (hbelow _ value) fun value => ?_
    refine .bind (Tracked.leads_note (by trivial) rfl) fun _ => ?_
    exact .bind (Tracked.leads_closeKey ⟨key, s.text⟩ s.frames _) fun _ => Tracked.leads_pure _
  | none =>
    dsimp only
    split
    · refine .bind (Tracked.leads_note (by trivial) rfl) fun _ => ?_
      exact .bind (Tracked.leads_closeKey ⟨key, s.text⟩ s.frames _) fun _ => Tracked.leads_pure _
    · exact Tracked.leads_fail _

theorem leads_expand (fuel : ℕ) (text : Text) :
    Tracked.Leads c s (c.expand lookup fuel s.keys.length text) ⟨s.frames, text⟩ := by
  induction fuel generalizing s text with
  | zero => exact Tracked.leads_cutOff
  | succ fuel ih =>
    refine Tracked.leads_get_bind (.bind (Tracked.leads_note ⟨rfl, rfl⟩ rfl) fun _ => ?_)
    split
    · split
      · exact Tracked.leads_fail _
      · -- in place means one pass, and each placeholder leaves the stack as the text found it
        rw [splice_zero]
        refine c.sweep_closed _ (P := fun x => Tracked.Leads c ⟨s.frames, text⟩ x ⟨s.frames, text⟩)
          Tracked.leads_pure Tracked.Leads.bind fun key hkey => ?_
        refine leads_fill hkey fun t text (ht : t.keys.length = s.keys.length + 1) => ?_
        rw [← ht]
        exact ih text
    · exact Tracked.leads_pure _

end Config

/-! ### With a memory beside the set -/

/-- Whatever the oracle remembers, the computation leads along the stack. -/
def Remembering.Leads (c : Config) (s : Stack) (x : Remembering σ α) (s' : Stack) : Prop :=
  ∀ memory, Tracked.Leads c s (x.run memory) s'

namespace Remembering

lemma Leads.bind {x : Remembering σ α} {f : α → Remembering σ β} (h : Leads c s x s')
    (hn : ∀ a, Leads c s' (f a) s'') : Leads c s (x >>= f) s'' := by
  intro memory
  rw [StateT.run_bind]
  exact (h memory).bind fun found => hn found.1 found.2

lemma leads_pure (a : α) : Leads c s (pure a : Remembering σ α) s := fun _ => Tracked.leads_pure _

lemma leads_tracked {x : Tracked α} (h : Tracked.Leads c s x s') :
    Leads c s (liftM x : Remembering σ α) s' := by
  intro memory
  have hlift : (liftM x : Remembering σ α).run memory = x >>= fun a => pure (a, memory) := rfl
  rw [hlift]
  exact h.bind fun a => Tracked.leads_pure _

lemma leads_get_bind {f : List Text → Remembering σ β} (h : Leads c s (f s.keys) s') :
    Leads c s (liftM (get : Tracked (List Text)) >>= f) s' := by
  intro memory
  exact Tracked.leads_get_bind (h memory)

end Remembering

namespace Config

variable {oracle : Oracle σ} {text key : Text}

lemma leads_askOracle (name : Text) : Remembering.Leads c s (askOracle oracle name) s :=
  .bind (Remembering.leads_tracked (Tracked.leads_note (by trivial) rfl)) fun _ _ =>
    Tracked.leads_pure _

lemma leads_valueFrom (key : Text) : Remembering.Leads c s (c.valueFrom oracle key) s := by
  refine .bind (leads_askOracle key) fun found => ?_
  cases found with
  | some value => exact Remembering.leads_pure _
  | none =>
    rcases c.split key with ⟨name, _ | default⟩
    · exact Remembering.leads_pure _
    · exact .bind (leads_askOracle name) fun found => Remembering.leads_pure _

lemma leads_fillFrom {expand : Text → Remembering σ Text} (hkey : .hole key ∈ c.pieces s.text)
    (h : ∀ (t : Stack) (text : Text), t.keys.length = s.keys.length + 1 →
      Remembering.Leads c t (expand text) ⟨t.frames, text⟩) :
    Remembering.Leads c s (c.fillFrom oracle expand text key) s := by
  have hbelow (t : Text) (text : Text) :
      Remembering.Leads c ⟨⟨key, s.text⟩ :: s.frames, t⟩ (expand text)
        ⟨⟨key, s.text⟩ :: s.frames, text⟩ :=
    h _ text (by simp [Stack.keys])
  refine .bind (Remembering.leads_tracked (Tracked.leads_openKey hkey)) fun _ => ?_
  refine .bind (hbelow _ key) fun name => .bind (leads_valueFrom name) fun found => ?_
  cases found with
  | some value =>
    refine .bind (hbelow _ value) fun value => ?_
    refine .bind (Remembering.leads_tracked (Tracked.leads_note (by trivial) rfl)) fun _ => ?_
    refine .bind (Remembering.leads_tracked (Tracked.leads_closeKey ⟨key, s.text⟩ s.frames _)) ?_
    exact fun _ => Remembering.leads_pure _
  | none =>
    dsimp only
    split
    · refine .bind (Remembering.leads_tracked (Tracked.leads_note (by trivial) rfl)) fun _ => ?_
      refine .bind (Remembering.leads_tracked (Tracked.leads_closeKey ⟨key, s.text⟩ s.frames _)) ?_
      exact fun _ => Remembering.leads_pure _
    · exact Remembering.leads_tracked (Tracked.leads_fail _)

theorem leads_expandFrom (fuel : ℕ) (text : Text) :
    Remembering.Leads c s (c.expandFrom oracle fuel s.keys.length text) ⟨s.frames, text⟩ := by
  induction fuel generalizing s text with
  | zero => exact Remembering.leads_tracked Tracked.leads_cutOff
  | succ fuel ih =>
    refine Remembering.leads_get_bind ?_
    refine .bind (Remembering.leads_tracked (Tracked.leads_note ⟨rfl, rfl⟩ rfl)) fun _ => ?_
    split
    · split
      · exact Remembering.leads_tracked (Tracked.leads_fail _)
      · rw [splice_zero]
        refine c.sweep_closed _
          (P := fun x => Remembering.Leads c ⟨s.frames, text⟩ x ⟨s.frames, text⟩)
          Remembering.leads_pure Remembering.Leads.bind fun key hkey => ?_
        refine leads_fillFrom hkey fun t text (ht : t.keys.length = s.keys.length + 1) => ?_
        rw [← ht]
        exact ih text
    · exact Remembering.leads_pure _

/-! ### The set of open keys -/

/-- At each step of the run of a text the set of open keys is the path to where the run is. -/
structure KeepsPath (c : Config) (text : Text) (trace : List Event) : Prop where
  /-- A call begins with the keys that have been opened and not closed, as many as it lies deep. -/
  enters : ∀ before depth visited inside after,
    trace = before ++ .enters depth visited inside :: after →
      visited = before.foldl Event.change [] ∧
      visited = (Stack.afterAll ⟨[], text⟩ before).keys ∧
      visited.Nodup ∧ visited.length = depth
  /-- Only the key of a placeholder of the text that is gone through is put into the set. -/
  opens : ∀ before key after, trace = before ++ .opens key :: after →
    key ∉ before.foldl Event.change [] ∧
    ∃ p ∈ c.placeholders (Stack.afterAll ⟨[], text⟩ before).text, p.key = key
  /-- Only the key that was opened last is taken out of the set, where it still is. -/
  closes : ∀ before key after, trace = before ++ .closes key :: after →
    key ∈ before.foldl Event.change [] ∧
    (Stack.afterAll ⟨[], text⟩ before).keys.head? = some key

end Config

namespace Stack

variable {text : Text} {event : Event} {before after trace : List Event}

/-- Opening and closing have made the set of what is on the stack. -/
lemma Follows.set_eq (h : Follows c ⟨[], text⟩ (before ++ event :: after)) :
    before.foldl Event.change [] = (afterAll ⟨[], text⟩ before).keys :=
  (follows_append.1 h).1.changes_eq

lemma Follows.keepsPath (h : Follows c ⟨[], text⟩ trace) : c.KeepsPath text trace where
  enters before depth visited inside after htrace := by
    subst htrace
    have hbefore := (follows_append.1 h).1
    obtain ⟨rfl, rfl⟩ := h.admits
    exact ⟨h.set_eq.symm, rfl, hbefore.nodup_afterAll List.nodup_nil, rfl⟩
  opens before key after htrace := by
    subst htrace
    obtain ⟨hnew, hhole⟩ := h.admits
    rw [h.set_eq, Config.placeholders_eq]
    exact ⟨hnew, Config.exists_mem_placeholdersAt hhole⟩
  closes before key after htrace := by
    subst htrace
    have hlast : (afterAll ⟨[], text⟩ before).keys.head? = some key := h.admits
    rw [h.set_eq]
    exact ⟨List.mem_of_mem_head? hlast, hlast⟩

end Stack

/-- If the computation returns, it leaves the set of open keys as it was. -/
def Tracked.Restores (x : Tracked α) (visited : List Text) : Prop :=
  ∀ a visited', (x.run visited).outcome = .done (a, visited') → visited' = visited

/-- Any set of open keys lies on some stack. -/
lemma Tracked.restores_of_leads (c : Config) (text : Text) {x : Tracked α} {visited : List Text}
    (h : ∀ s : Stack, s.keys = visited → Leads c s x ⟨s.frames, text⟩) : x.Restores visited := by
  intro a visited' hdone
  let s : Stack := ⟨visited.map fun key => ⟨key, []⟩, []⟩
  have hkeys : s.keys = visited := by simp [s, Stack.keys, Function.comp_def]
  obtain ⟨hvisited, -⟩ := (h s hkeys).returns a visited' (by rwa [hkeys])
  exact hvisited.trans hkeys

namespace Config

/-- **The set of open keys is the path.** In every run, with any lookup and with any oracle, each
call begins with exactly the keys that are open around it, which differ and are as many as its depth
says; a call that returns leaves the set as it found it; and no key is taken out of the set that is
not in it. -/
theorem visited_is_path (c : Config) (text : Text) :
    (∀ (lookup : Lookup) (bound : ℕ),
      c.KeepsPath text (c.resolveWithin lookup bound text).trace ∧
      ∀ (visited : List Text) (inside : Text),
        (c.expand lookup bound visited.length inside).Restores visited) ∧
    ∀ (σ : Type) (oracle : Oracle σ) (memory : σ) (bound : ℕ),
      c.KeepsPath text (c.resolveFrom oracle bound memory text).trace ∧
      ∀ (visited : List Text) (inside : Text),
        Tracked.Restores ((c.expandFrom oracle bound visited.length inside).run memory)
          visited := by
  constructor
  · intro lookup bound
    constructor
    · have hleads : Tracked.Leads c ⟨[], text⟩ (c.expand lookup bound 0 text) ⟨[], text⟩ :=
        leads_expand bound text
      have htrace : (c.resolveWithin lookup bound text).trace =
          ((c.expand lookup bound 0 text).run []).trace := Run.trace_map _
      rw [htrace]
      exact hleads.follows.keepsPath
    · intro visited inside
      refine Tracked.restores_of_leads c inside fun s hkeys => ?_
      rw [← hkeys]
      exact leads_expand bound inside
  · intro σ oracle memory bound
    constructor
    · have hleads : Tracked.Leads c ⟨[], text⟩ ((c.expandFrom oracle bound 0 text).run memory)
          ⟨[], text⟩ := leads_expandFrom bound text memory
      have htrace : (c.resolveFrom oracle bound memory text).trace =
          (((c.expandFrom oracle bound 0 text).run memory).run []).trace := by
        simp [resolveFrom, StateT.run'_eq]
      rw [htrace]
      exact hleads.follows.keepsPath
    · intro visited inside
      refine Tracked.restores_of_leads c inside fun s hkeys => ?_
      rw [← hkeys]
      exact leads_expandFrom bound inside memory

end Config
end ConfigText
