import ConfigText.Lookup
import ConfigText.Proofs.Nesting
import ConfigText.Proofs.Plain
import ConfigText.Proofs.Sources
import Mathlib

/-!
Texts that refer to values by plain names.

The texts and all values are rows of literals and references, and neither holds a character of the
marks. Then names are found as they stand, and which value refers to which name is a graph. A text
fails for a circular key if it leads to a cycle of the graph; else its references are replaced
again and again until only those are left that have no value.
-/

namespace ConfigText.Config

/-- A part of a text that holds no placeholders but names in marks. -/
inductive Item (c : Config)
  | literal (text : Text) (plain : c.Plain text)
  | reference (name : Text) (plain : c.Plain name)

namespace Item

variable {c : Config}

def write : Item c → Text
  | literal text _ => text
  | reference name _ => c.enclose name

def name? : Item c → Option Text
  | literal _ _ => none
  | reference name _ => some name

end Item

/-- The text that items in a row make up. -/
def render {c : Config} (items : List (Item c)) : Text := items.flatMap Item.write

/-- The names that the items refer to. -/
def references {c : Config} (items : List (Item c)) : List Text := items.filterMap Item.name?

/-- Values that are rows of items, by name. -/
abbrev Definitions (c : Config) := Table Text (List (Item c))

variable {c : Config} {defs : Definitions c} {items body : List (Item c)} {name : Text}

namespace Definitions

/-- The values as texts. -/
def properties (defs : Definitions c) : Properties :=
  ⟨defs.entries.map fun (name, body) => (.text name, .text (render body))⟩

lemma properties_get? (defs : Definitions c) (name : Text) :
    defs.properties.get? name = (defs.find? name).map render := by
  refine (Properties.get?_keyed (fun body => .text (render body)) defs.entries name).trans ?_
  rw [Table.find?]
  cases defs.entries.lookup name <;> rfl

/-- The value of `name` refers to `other`. -/
def Refers (defs : Definitions c) (name other : Text) : Prop :=
  ∃ body, defs.find? name = some body ∧ other ∈ references body

/-- A cycle can be reached from the names that the items refer to. -/
def LeadsToCycle (defs : Definitions c) (items : List (Item c)) : Prop :=
  ∃ name ∈ references items, ∃ key, Relation.ReflTransGen defs.Refers name key ∧
    Relation.TransGen defs.Refers key key

/-- Replacing the references of the items by their values, and so on in the values, gives the
text. A reference without a value stays. -/
inductive Expands (defs : Definitions c) : List (Item c) → Text → Prop
  | nil : Expands defs [] []
  | literal {text plain items rest} : Expands defs items rest →
      Expands defs (.literal text plain :: items) (text ++ rest)
  | kept {name plain items rest} : defs.find? name = none → Expands defs items rest →
      Expands defs (.reference name plain :: items) (c.enclose name ++ rest)
  | replaced {name plain body new items rest} : defs.find? name = some body →
      Expands defs body new → Expands defs items rest →
      Expands defs (.reference name plain :: items) (new ++ rest)

end Definitions

/-! ### What stands in a text of items -/

lemma pieces_render_literal {text : Text} (plain : c.Plain text) :
    c.pieces (render (.literal text plain :: items)) =
      text.map .char ++ c.pieces (render items) :=
  pieces_plain_append plain _

lemma pieces_render_reference (plain : c.Plain name) :
    c.pieces (render (.reference name plain :: items)) =
      .hole name :: c.pieces (render items) :=
  pieces_enclose_plain_append plain _

lemma plain_of_mem_references (h : name ∈ references items) : c.Plain name := by
  obtain ⟨item, -, hi⟩ := List.mem_filterMap.1 h
  cases item with
  | literal text plain => cases hi
  | reference name' plain =>
    obtain rfl : name' = name := by simpa [Item.name?] using hi
    exact plain

lemma mem_references_of_hole_mem (h : .hole name ∈ c.pieces (render items)) :
    name ∈ references items := by
  induction items with
  | nil => simp [render, pieces] at h
  | cons item more ih =>
    cases item with
    | literal text plain =>
      rw [pieces_render_literal] at h
      exact ih (by simpa using h)
    | reference other plain =>
      rw [pieces_render_reference, List.mem_cons] at h
      obtain h | h := h
      · obtain rfl : name = other := by simpa using h
        exact List.mem_cons_self
      · exact List.mem_cons_of_mem _ (ih h)

/-! ### What resolving makes of a reference -/

/-- The texts of the values, as a function of the names. -/
def Definitions.value (defs : Definitions c) (name : Text) : Option Text :=
  (defs.find? name).map render

lemma Definitions.ofProperties_eq (defs : Definitions c) :
    Lookup.ofProperties defs.properties = .ofFunction defs.value :=
  congrArg Lookup.ofFunction (funext defs.properties_get?)

lemma expands_of_sweep {fill : Text → Run (Option Text)} {result : Text}
    (hfill : ∀ name, c.Plain name → ∀ found, (fill name).outcome = .done found →
      defs.find? name = none ∧ found = none ∨ ∃ body new, defs.find? name = some body ∧
        defs.Expands body new ∧ found = some new)
    (h : (c.sweep fill (c.pieces (render items))).outcome = .done result) :
    defs.Expands items result := by
  induction items generalizing result with
  | nil =>
    obtain rfl : [] = result := by simpa [render, pieces, sweep] using h
    exact .nil
  | cons item more ih =>
    cases item with
    | literal text plain =>
      rw [pieces_render_literal, sweep_chars] at h
      obtain ⟨rest, hr, rfl⟩ := Run.outcome_map_done.1 h
      exact .literal (ih hr)
    | reference name plain =>
      rw [pieces_render_reference, sweep] at h
      obtain ⟨found, hf, h⟩ := Run.outcome_bind_done.1 h
      obtain ⟨rest, hr, rfl⟩ := Run.outcome_map_done.1 h
      rcases hfill name plain found hf with ⟨hn, rfl⟩ | ⟨body, new, hb, hnew, rfl⟩
      · exact .kept hn (ih hr)
      · exact .replaced hb hnew (ih hr)

variable {fuel depth : ℕ} {path : List Text} {text : Text} {failure : Failure}

section Outcomes

variable (hmax : c.maxDepth = none)
include hmax

lemma fillAt_done (plain : c.Plain name) {found : Option Text}
    (h : (c.fillAt (.ofFunction defs.value)
      (c.expandAt (.ofFunction defs.value) fuel (name :: path) depth) path text name).outcome
        = .done found) :
    defs.find? name = none ∧ found = none ∨ ∃ body new, defs.find? name = some body ∧
      (c.expandAt (.ofFunction defs.value) fuel (name :: path) depth (render body)).outcome
        = .done new ∧ found = some new := by
  rw [fillAt] at h
  split at h
  · cases h
  · obtain ⟨name', hn, h⟩ := substitute_done.1 h
    obtain rfl := eq_of_expandAt_plain hmax plain hn
    rw [valueAt_plain plain, Definitions.value] at h
    rcases h with ⟨new, result, hv, hr, rfl⟩ | ⟨hv, -, rfl⟩
    · obtain ⟨body, hb, rfl⟩ := Option.map_eq_some_iff.1 hv
      exact .inr ⟨body, result, hb, hr, rfl⟩
    · exact .inl ⟨Option.map_eq_none_iff.1 hv, rfl⟩

/-- Below a plain name a run goes on with the name and with its value. -/
lemma GoesOn.eq_or_exists {part : Text} (plain : c.Plain name)
    (h : c.GoesOn defs.value (c.expandAt (.ofFunction defs.value) fuel path depth) name part) :
    part = name ∨ ∃ body, defs.find? name = some body ∧ part = render body := by
  cases h with
  | key => exact .inl rfl
  | found hn hv =>
    obtain rfl := eq_of_expandAt_plain hmax plain hn
    rw [valueAt_plain plain] at hv
    obtain ⟨body, hb, rfl⟩ := Option.map_eq_some_iff.1 hv
    exact .inr ⟨body, hb, rfl⟩

/-- What resolving returns is what replacing the references gives. -/
lemma expands_of_expandAt {result : Text}
    (h : (c.expandAt (.ofFunction defs.value) fuel path depth (render items)).outcome
      = .done result) : defs.Expands items result := by
  induction fuel generalizing path depth items result with
  | zero => cases h
  | succ fuel ih =>
    rw [expandAt_succ (tooDeep_eq_none hmax depth), Run.outcome_note_bind] at h
    refine expands_of_sweep (fun name plain found hf => ?_) h
    rcases fillAt_done hmax plain hf with hn | ⟨body, new, hb, hnew, rfl⟩
    · exact .inl hn
    · exact .inr ⟨body, new, hb, ih hnew, rfl⟩

/-- A failure is one for a circular key, which can be reached and lies on a cycle, unless it lies
on the path. -/
lemma circular_of_expandAt (hlenient : c.lenient = true)
    (h : (c.expandAt (.ofFunction defs.value) fuel path depth (render items)).outcome
      = .failed failure) :
    ∃ key, failure = .circular key ∧ ∃ name ∈ references items,
      Relation.ReflTransGen defs.Refers name key ∧
        (key ∈ path ∨ Relation.TransGen defs.Refers key key) := by
  induction fuel generalizing path depth items with
  | zero => cases h
  | succ fuel ih =>
    rcases exists_of_expandAt_failed h with ⟨limit, hd, -⟩ | ⟨name, hname, h⟩
    · rw [tooDeep_eq_none hmax] at hd
      cases hd
    have hmem := mem_references_of_hole_mem hname
    have plain := plain_of_mem_references hmem
    rcases h with ⟨hpath, rfl⟩ | ⟨part, hgoes, h⟩ | ⟨-, -, -, hstrict, -⟩
    · exact ⟨name, rfl, name, hmem, .refl, .inl hpath⟩
    · obtain rfl | ⟨body, hb, rfl⟩ := hgoes.eq_or_exists hmax plain
      · exact absurd h (expandAt_plain_ne_failed hmax plain)
      obtain ⟨key, rfl, other, ho, hreach, hkey⟩ := ih h
      have hrefers : defs.Refers name other := ⟨body, hb, ho⟩
      refine ⟨key, rfl, name, hmem, hreach.head hrefers, ?_⟩
      rw [List.mem_cons, or_assoc] at hkey
      rcases hkey with rfl | hkey | hkey
      · exact .inr (.head' hrefers hreach)
      · exact .inl hkey
      · exact .inr hkey
    · simp [hlenient] at hstrict

end Outcomes

/-! ### The graph -/

namespace Definitions

lemma Expands.unique {result result' : Text} (h : defs.Expands items result)
    (h' : defs.Expands items result') : result = result' := by
  induction h generalizing result' with
  | nil => cases h'; rfl
  | literal _ ih =>
    cases h' with
    | literal hm => rw [ih hm]
  | kept hn _ ih =>
    cases h' with
    | kept _ hm => rw [ih hm]
    | replaced hb => rw [hn] at hb; cases hb
  | replaced hb _ _ ihnew ih =>
    cases h' with
    | kept hn => rw [hn] at hb; cases hb
    | replaced hb' hnew hm =>
      obtain rfl := Option.some.inj (hb.symm.trans hb')
      rw [ihnew hnew, ih hm]

/-- Below the references of items that can be replaced to the end there is no endless way. -/
lemma Expands.acc {result : Text} (h : defs.Expands items result) :
    ∀ name ∈ references items, Acc (fun other name => defs.Refers name other) name := by
  induction h with
  | nil => simp [references]
  | literal _ ih => simpa [references, Item.name?] using ih
  | kept hn _ ih =>
    intro name hm
    rcases List.mem_cons.1 hm with rfl | hm
    · refine ⟨_, fun other => ?_⟩
      rintro ⟨body, hb, -⟩
      rw [hn] at hb
      cases hb
    · exact ih name hm
  | replaced hb _ _ ihnew ih =>
    intro name hm
    rcases List.mem_cons.1 hm with rfl | hm
    · refine ⟨_, fun other => ?_⟩
      rintro ⟨body', hb', ho⟩
      obtain rfl := Option.some.inj (hb.symm.trans hb')
      exact ihnew other ho
    · exact ih name hm

lemma not_cycle_of_acc (h : Acc (fun other name => defs.Refers name other) name) :
    ∀ key, Relation.ReflTransGen defs.Refers name key →
      ¬Relation.TransGen defs.Refers key key := by
  induction h with
  | intro name _ ih =>
    intro key hreach hcycle
    -- a step on from the name, on the way to the cycle or round it
    obtain ⟨other, hstep, hrest⟩ :=
      Relation.TransGen.head'_iff.1 (Relation.TransGen.trans_right hreach hcycle)
    exact ih other hstep key hrest hcycle

lemma Expands.not_leadsToCycle {result : Text} (h : defs.Expands items result) :
    ¬defs.LeadsToCycle items := by
  rintro ⟨name, hm, key, hreach, hcycle⟩
  exact not_cycle_of_acc (h.acc name hm) key hreach hcycle

end Definitions

/-- A text of items opens only names that stand in the items or in the values. -/
lemma pool_references (hmax : c.maxDepth = none) (defs : Definitions c) (items : List (Item c)) :
    c.Pool defs.value
      {text | ∃ row : List (Item c), text = render row ∧
        references row ⊆ references (items ++ defs.entries.flatMap Prod.snd)}
      {name | name ∈ references (items ++ defs.entries.flatMap Prod.snd)} where
  hole := by
    rintro _ name ⟨row, rfl, hrow⟩ hname
    exact hrow (mem_references_of_hole_mem hname)
  goesOn := by
    intro fuel path depth name part hname hgoes
    have plain := plain_of_mem_references hname
    obtain rfl | ⟨body, hb, rfl⟩ := hgoes.eq_or_exists hmax plain
    · exact ⟨[.literal part plain], by simp [render, Item.write], List.nil_subset _⟩
    refine ⟨body, rfl, fun other ho => ?_⟩
    obtain ⟨front, behind, hentries, -⟩ := List.lookup_eq_some_iff.1 hb
    simp only [references, List.filterMap_append, List.mem_append]
    refine .inr (List.mem_filterMap.2 ?_)
    obtain ⟨item, hi, hother⟩ := List.mem_filterMap.1 ho
    exact ⟨item, List.mem_flatMap.2 ⟨(name, body), by simp [hentries], hi⟩, hother⟩

/-- **Cycles among the definitions.** A text of items fails for a circular key exactly if it leads
to a cycle among the definitions. If it does not it ends, with the one text that replacing the
references gives. -/
theorem circular_iff_leadsToCycle (c : Config) (hlenient : c.lenient = true)
    (hmax : c.maxDepth = none) (defs : Definitions c) (items : List (Item c)) :
    ((∃ key, c.Ends (.ofProperties defs.properties) (render items) (.failed (.circular key))) ↔
      defs.LeadsToCycle items) ∧
    (¬defs.LeadsToCycle items → ∃ result, (∀ text, defs.Expands items text ↔ text = result) ∧
      c.Ends (.ofProperties defs.properties) (render items) (.done result)) := by
  rw [defs.ofProperties_eq]
  obtain ⟨run, hrun⟩ := (pool_references hmax defs items).exists_resolves
    (List.finite_toSet _) ⟨items, rfl, by simp [references]⟩
  have ⟨hne, bound, hbound⟩ := hrun
  rw [resolveWithin_eq] at hbound
  cases ho : run.outcome with
  | exhausted => exact absurd ho hne
  | done result =>
    have hends : c.Ends (.ofFunction defs.value) (render items) (.done result) := ⟨run, hrun, ho⟩
    have hexpands : defs.Expands items result := expands_of_expandAt hmax (hbound ▸ ho)
    refine ⟨⟨?_, fun hcycle => absurd hcycle hexpands.not_leadsToCycle⟩, fun _ => ?_⟩
    · rintro ⟨key, hk⟩
      cases hk.unique hends
    · exact ⟨result, fun text => ⟨fun h => h.unique hexpands, fun h => h ▸ hexpands⟩, hends⟩
  | failed failure =>
    obtain ⟨key, rfl, name, hm, hreach, hkey⟩ :=
      circular_of_expandAt hmax hlenient (hbound ▸ ho)
    have hcycle : defs.LeadsToCycle items :=
      ⟨name, hm, key, hreach, hkey.resolve_left List.not_mem_nil⟩
    exact ⟨⟨fun _ => hcycle, fun _ => ⟨key, run, hrun, ho⟩⟩, fun h => absurd hcycle h⟩

/-- Two names that refer to a third one, and one that refers to itself. -/
def sharedDefinitions : Definitions braces :=
  ⟨[(['a'], [.reference ['c'] (by decide), .reference ['b'] (by decide)]),
    (['b'], [.literal ['x'] (by decide), .reference ['c'] (by decide)]),
    (['c'], [.literal ['1'] (by decide)]),
    (['d'], [.reference ['a'] (by decide), .reference ['d'] (by decide)])]⟩

/-- What is shared is no cycle, and what refers to itself is one. -/
theorem sharedDefinitions_resolve :
    (braces.lenient = true ∧ braces.maxDepth = none) ∧
    braces.Ends (.ofProperties sharedDefinitions.properties)
      ['$', '{', 'a', '}', '$', '{', 'u', '}'] (.done ['1', 'x', '1', '$', '{', 'u', '}']) ∧
    ∃ key, braces.Ends (.ofProperties sharedDefinitions.properties) ['$', '{', 'd', '}']
      (.failed (.circular key)) := by
  refine ⟨⟨rfl, rfl⟩, ?_, ?_⟩
  · have hone : sharedDefinitions.Expands [.literal ['1'] (by decide)] ['1'] := .literal .nil
    have hc : sharedDefinitions.Expands [.reference ['c'] (by decide)] ['1'] :=
      .replaced rfl hone .nil
    have hx : sharedDefinitions.Expands
        [.literal ['x'] (by decide), .reference ['c'] (by decide)] ['x', '1'] := .literal hc
    have hb : sharedDefinitions.Expands [.reference ['b'] (by decide)] ['x', '1'] :=
      .replaced rfl hx .nil
    have ha : sharedDefinitions.Expands
        [.reference ['a'] (by decide), .reference ['u'] (by decide)]
        ['1', 'x', '1', '$', '{', 'u', '}'] :=
      .replaced rfl (.replaced rfl hone hb) (.kept rfl .nil)
    obtain ⟨result, hiff, hends⟩ :=
      (circular_iff_leadsToCycle braces rfl rfl sharedDefinitions _).2 ha.not_leadsToCycle
    obtain rfl := (hiff _).1 ha
    exact hends
  · have hself : sharedDefinitions.Refers ['d'] ['d'] := ⟨_, rfl, by decide⟩
    exact (circular_iff_leadsToCycle braces rfl rfl sharedDefinitions
      [.reference ['d'] (by decide)]).1.2 ⟨['d'], by decide, ['d'], .refl, .single hself⟩

end ConfigText.Config
