import ConfigText.Proofs.Paths
import ConfigText.Proofs.Sources
import Mathlib

/-!
A chain of sources as one table.

Going through the sources in order, each key takes the first value that is not null; the values stay
of their kinds. Only texts are asked for, so keys of other kinds are there to no effect. What the
chain and a source over the table say of a name is then the same, and so is what the table and a
function to its values say. Between the two pairs there is one difference: a chain turns every value
into a text, while a table that is asked leaves a text of a kind of its own as it is. A run that
meets no such value whose text is another one does not tell them apart.
-/

namespace ConfigText

lemma Value.text_beq_iff {name : Text} {key : Value} :
    (Value.text name == key) = true ↔ key.text? = some name := by
  rw [text_beq_eq, beq_iff_eq]

/-- A key that holds a text is the same key as the text. -/
lemma Value.beq_eq_of_text? {name : Text} {key : Value} (h : key.text? = some name)
    (other : Value) : (key == other) = (Value.text name == other) := by
  cases key with
  | text t =>
    obtain rfl : t = name := Option.some.inj h
    rfl
  | styled t style =>
    obtain rfl : t = name := Option.some.inj h
    cases other <;> rfl
  | _ => cases h

lemma Value.beq_iff_of_text? {name : Text} {key other : Value} (h : other.text? = some name) :
    (key == other) = true ↔ key.text? = some name := by
  have hplain : (key == other) = (key == Value.text name) := by
    cases other with
    | text t =>
      obtain rfl : t = name := Option.some.inj h
      rfl
    | styled t style =>
      obtain rfl : t = name := Option.some.inj h
      cases key <;> rfl
    | _ => cases h
  rw [hplain, beq_text_eq, beq_iff_eq]

/-- No key comes twice: one that comes later is not the same key. -/
def Properties.KeysDiffer (props : Properties) : Prop :=
  props.keys.Pairwise fun key later => (later == key) = false

namespace Properties

variable {props others : Properties} {name : Text} {key value : Value}

/-- The value at a key, where null counts as none. -/
def filled? (props : Properties) (key : Value) : Option Value :=
  match props.find? key with
  | none | some .null => none
  | some value => some value

lemma filled?_eq_some_iff :
    props.filled? key = some value ↔ props.find? key = some value ∧ value ≠ .null := by
  unfold filled?
  cases props.find? key with
  | none => simp
  | some found => cases found <;> simp <;> rintro rfl <;> simp

lemma shown?_eq_bind_filled? (props : Properties) (name : Text) :
    props.shown? name = (props.filled? (.text name)).bind Value.shown := by
  unfold shown? filled?
  cases props.find? (.text name) with
  | none => rfl
  | some found => cases found <;> rfl

/-- A key that holds a text has the value of the text. -/
lemma find?_eq_of_text? (h : key.text? = some name) :
    props.find? key = props.find? (.text name) := by
  obtain ⟨entries⟩ := props
  change entries.lookup _ = entries.lookup _
  induction entries with
  | nil => rfl
  | cons entry more ih => rw [List.lookup_cons, List.lookup_cons, Value.beq_eq_of_text? h, ih]

lemma filled?_eq_of_text? (h : key.text? = some name) :
    props.filled? key = props.filled? (.text name) := by
  rw [filled?, filled?, find?_eq_of_text? h]

/-! ### Writing to a key -/

lemma find?_insert_self (h : key.text? = some name) :
    (props.insert key value).find? (.text name) = some value := by
  have hself : (Value.text name == key) = true := Value.text_beq_iff.2 h
  obtain ⟨entries⟩ := props
  change (Table.insertInto _ _ entries).lookup _ = _
  induction entries with
  | nil => simp [Table.insertInto, List.lookup_cons, hself]
  | cons entry more ih =>
    obtain ⟨k, v⟩ := entry
    have hsame := Value.beq_eq_of_text? h k
    cases hk : Value.text name == k with
    | true => simp [Table.insertInto, List.lookup_cons, hsame, hk]
    | false => simpa [Table.insertInto, List.lookup_cons, hsame, hk] using ih

lemma find?_insert_of_ne (h : key.text? ≠ some name) :
    (props.insert key value).find? (.text name) = props.find? (.text name) := by
  have hnew : (Value.text name == key) = false := by
    rwa [Bool.eq_false_iff, ne_eq, Value.text_beq_iff]
  obtain ⟨entries⟩ := props
  change (Table.insertInto _ _ entries).lookup _ = entries.lookup _
  induction entries with
  | nil => simp [Table.insertInto, List.lookup_cons, hnew]
  | cons entry more ih =>
    obtain ⟨k, v⟩ := entry
    by_cases hname : k.text? = some name
    · -- the key that is written to is another one, so this entry stays
      have hk : (key == k) = false := by
        rwa [Bool.eq_false_iff, ne_eq, Value.beq_iff_of_text? hname]
      have hfound : (Value.text name == k) = true := Value.text_beq_iff.2 hname
      simp [Table.insertInto, List.lookup_cons, hk, hfound]
    · have hk : (Value.text name == k) = false := by
        rwa [Bool.eq_false_iff, ne_eq, Value.text_beq_iff]
      cases hkey : key == k with
      | true => simp [Table.insertInto, List.lookup_cons, hkey, hk]
      | false => simpa [Table.insertInto, List.lookup_cons, hkey, hk] using ih

lemma KeysDiffer.insert (h : props.KeysDiffer) (key value : Value) :
    KeysDiffer (props.insert key value) := by
  obtain ⟨entries⟩ := props
  unfold KeysDiffer Table.keys at h ⊢
  rw [Table.insert, Table.keys_insertInto]
  split
  · simpa using h
  · next hnew =>
    refine List.pairwise_append.2 ⟨h, List.pairwise_singleton _ _, fun k hk other hother => ?_⟩
    obtain ⟨pair, hpair, rfl⟩ := List.mem_map.1 hk
    obtain rfl := List.mem_singleton.1 hother
    exact Bool.eq_false_iff.2 fun heq => hnew (List.any_eq_true.2 ⟨pair, hpair, heq⟩)

/-! ### Tables behind one another -/

/-- The properties with the value of another table at one key, if they have none there. -/
def fillAt (others props : Properties) (key : Value) : Properties :=
  match props.find? key, others.filled? key with
  | none, some value => props.insert key value
  | _, _ => props

/-- The properties with the values of another table behind them. -/
def fillUp (props others : Properties) : Properties := others.keys.foldl others.fillAt props

lemma find?_fillAt_self (h : key.text? = some name) :
    (others.fillAt props key).find? (.text name) =
      (props.find? (.text name)).or (others.filled? (.text name)) := by
  rw [fillAt, find?_eq_of_text? h, filled?_eq_of_text? h]
  cases hp : props.find? (.text name) with
  | some found => simp [hp]
  | none =>
    cases ho : others.filled? (.text name) with
    | none => simp [hp]
    | some found => simp [find?_insert_self h]

lemma find?_fillAt_of_ne (h : key.text? ≠ some name) :
    (others.fillAt props key).find? (.text name) = props.find? (.text name) := by
  unfold fillAt
  split
  · exact find?_insert_of_ne h
  · rfl

lemma find?_foldl_fillAt (keys : List Value) :
    (keys.foldl others.fillAt props).find? (.text name) =
      (props.find? (.text name)).or
        (if keys.any (Value.text name == ·) then others.filled? (.text name) else none) := by
  induction keys generalizing props with
  | nil => simp
  | cons key more ih =>
    rw [List.foldl_cons, ih, List.any_cons]
    cases hkey : Value.text name == key with
    | true =>
      rw [find?_fillAt_self (Value.text_beq_iff.1 hkey), Option.or_assoc, Bool.true_or, if_pos rfl]
      congr 1
      split
      · exact Option.or_self
      · exact Option.or_none
    | false =>
      rw [Bool.eq_false_iff, ne_eq, Value.text_beq_iff] at hkey
      rw [find?_fillAt_of_ne hkey, Bool.false_or]

lemma any_keys_of_find? (h : props.find? (.text name) = some value) :
    props.keys.any (Value.text name == ·) = true := by
  obtain ⟨entries⟩ := props
  change entries.lookup _ = _ at h
  change (entries.map Prod.fst).any _ = true
  induction entries with
  | nil => cases h
  | cons entry more ih =>
    rw [List.lookup_cons] at h
    rw [List.map_cons, List.any_cons]
    cases hk : Value.text name == entry.1 with
    | true => rfl
    | false => simpa using ih (by simpa [hk] using h)

lemma KeysDiffer.fillUp (h : props.KeysDiffer) (others : Properties) :
    (props.fillUp others).KeysDiffer := by
  unfold Properties.fillUp
  induction others.keys generalizing props with
  | nil => exact h
  | cons key more ih =>
    refine ih ?_
    unfold fillAt
    split
    · exact h.insert key _
    · exact h

/-- A name has its value, and else the one that it has in the table behind. -/
theorem find?_fillUp (props others : Properties) (name : Text) :
    (props.fillUp others).find? (.text name) =
      (props.find? (.text name)).or (others.filled? (.text name)) := by
  rw [fillUp, find?_foldl_fillAt]
  split
  · rfl
  · next hnot =>
    cases hfilled : others.filled? (.text name) with
    | none => rfl
    | some value => exact absurd (any_keys_of_find? (filled?_eq_some_iff.1 hfilled).1) hnot

end Properties

namespace Chain

variable (chain : Chain) (env : Environment)

/-- The table that gives each key the first value that a source has for it. -/
def merged : Properties :=
  chain.sources.foldl (fun props source => props.fillUp (source.properties env)) .empty

lemma find?_foldl_fillUp (sources : List Source) (props : Properties) (name : Text) :
    (sources.foldl (fun props source => props.fillUp (source.properties env)) props).find?
        (.text name) =
      (props.find? (.text name)).or
        (sources.findSome? fun source => (source.properties env).filled? (.text name)) := by
  induction sources generalizing props with
  | nil => simp
  | cons source more ih =>
    rw [List.foldl_cons, ih, Properties.find?_fillUp, Option.or_assoc, List.findSome?_cons]
    cases (source.properties env).filled? (.text name) <;> rfl

lemma find?_merged (name : Text) :
    (chain.merged env).find? (.text name) =
      chain.sources.findSome? fun source => (source.properties env).filled? (.text name) := by
  rw [merged, find?_foldl_fillUp, Table.find?_empty, Option.none_or]

lemma filled?_merged (name : Text) :
    (chain.merged env).filled? (.text name) = (chain.merged env).find? (.text name) := by
  cases hfind : (chain.merged env).find? (.text name) with
  | none => rw [Properties.filled?, hfind]
  | some value =>
    have hfirst := hfind
    rw [find?_merged] at hfirst
    obtain ⟨source, -, hvalue⟩ := List.exists_of_findSome?_eq_some hfirst
    exact Properties.filled?_eq_some_iff.2
      ⟨hfind, (Properties.filled?_eq_some_iff.1 hvalue).2⟩

/-- The table's values are turned into the texts that the chain has for their names. -/
lemma shown?_merged (name : Text) :
    (chain.merged env).shown? name = chain.property? env name := by
  rw [Properties.shown?_eq_bind_filled?, filled?_merged, find?_merged, property?]
  induction chain.sources with
  | nil => rfl
  | cons source more ih =>
    rw [List.findSome?_cons, List.findSome?_cons, Source.get?, Properties.shown?_eq_bind_filled?]
    cases hfilled : (source.properties env).filled? (.text name) with
    | none => exact ih
    | some value =>
      have hne : value ≠ .null := (Properties.filled?_eq_some_iff.1 hfilled).2
      cases hshown : value.shown with
      | none => exact absurd (Value.shown_eq_none_iff.1 hshown) hne
      | some shown => simp [hshown]

lemma keysDiffer_merged : (chain.merged env).KeysDiffer := by
  have hstart : Properties.KeysDiffer .empty := .nil
  unfold merged
  generalize (Table.empty : Properties) = props at hstart
  induction chain.sources generalizing props with
  | nil => exact hstart
  | cons source more ih => exact ih _ (hstart.fillUp (source.properties env))

end Chain

/-- If the value at the name is a text of a kind of its own, it is turned into the text that it
holds. -/
def Properties.ShownAsIs (props : Properties) (name : Text) : Prop :=
  ∀ t style, props.find? (.text name) = some (.styled t style) → style.shown = t

lemma Properties.shownAsIs_iff {props : Properties} {name : Text} :
    props.ShownAsIs name ↔ props.get? name = props.shown? name := by
  unfold ShownAsIs get? shown?
  cases props.find? (.text name) with
  | none => simp
  | some value =>
    cases value <;> simp [Value.present, Value.shown, Value.text?, Value.toText, eq_comm]

namespace Config

variable {c : Config} {lookup lookup' : Lookup} {bound : ℕ}

/-! ### Nested values under two lookups -/

mutual

/-- Lookups that agree on what is asked for give the same run of a nested value. -/
lemma resolveValueWithin_sameIf (value : Value) :
    (c.resolveValueWithin lookup bound value).SameIf (fun name => lookup name = lookup' name)
      (c.resolveValueWithin lookup' bound value) := by
  have htext := c.resolveWithin_sameIf lookup lookup' bound
  cases value with
  | text t => exact Run.SameIf.bind (htext t) fun _ _ => rfl
  | styled t style =>
    intro hagree
    have hrun := htext t fun name hname => hagree name ((Run.prefix_trace_bind _ _).subset hname)
    rw [resolveValueWithin, resolveValueWithin, hrun]
  | list items =>
    rw [resolveValueWithin, resolveValueWithin]
    exact Run.SameIf.bind (resolveItemsWithin_sameIf items) fun _ _ => rfl
  | tuple items =>
    rw [resolveValueWithin, resolveValueWithin]
    exact Run.SameIf.bind (resolveItemsWithin_sameIf items) fun _ _ => rfl
  | dict entries =>
    rw [resolveValueWithin, resolveValueWithin]
    exact Run.SameIf.bind (resolveEntriesWithin_sameIf entries) fun _ _ => rfl
  | null => exact fun _ => rfl
  | bool b => exact fun _ => rfl
  | int n => exact fun _ => rfl
  | float x => exact fun _ => rfl
  | bytes content mutable => exact fun _ => rfl

lemma resolveItemsWithin_sameIf (items : List Value) :
    (c.resolveItemsWithin lookup bound items).SameIf (fun name => lookup name = lookup' name)
      (c.resolveItemsWithin lookup' bound items) := by
  cases items with
  | nil => exact fun _ => rfl
  | cons item more =>
    rw [resolveItemsWithin, resolveItemsWithin]
    exact Run.SameIf.bind (resolveValueWithin_sameIf item) fun _ =>
      Run.SameIf.bind (resolveItemsWithin_sameIf more) fun _ _ => rfl

lemma resolveEntriesWithin_sameIf (entries : List (Value × Value)) :
    (c.resolveEntriesWithin lookup bound entries).SameIf (fun name => lookup name = lookup' name)
      (c.resolveEntriesWithin lookup' bound entries) := by
  cases entries with
  | nil => exact fun _ => rfl
  | cons entry more =>
    obtain ⟨key, value⟩ := entry
    rw [resolveEntriesWithin, resolveEntriesWithin]
    exact Run.SameIf.bind (resolveValueWithin_sameIf value) fun _ =>
      Run.SameIf.bind (resolveEntriesWithin_sameIf more) fun _ _ => rfl

end

/-- Whatever is resolved against one lookup takes the same course against the other: the same names
are asked for, and the end is the same. -/
structure ResolvesAlike (c : Config) (lookup other : Lookup) : Prop where
  text : ∀ bound text, c.resolveWithin lookup bound text = c.resolveWithin other bound text
  value : ∀ bound value,
    c.resolveValueWithin lookup bound value = c.resolveValueWithin other bound value

lemma ResolvesAlike.of_eq {c : Config} {lookup other : Lookup} (h : lookup = other) :
    c.ResolvesAlike lookup other := by
  subst h
  exact ⟨fun _ _ => rfl, fun _ _ => rfl⟩

/-- **A chain is one merged table.** In the table each name has the first value that is not null
among the sources of the chain, in their order and of its own kind. Texts and nested values resolve
alike against the chain and against a source over the table, and they resolve alike against the
table and against the function to its values. The chain and the table say the same of a name unless
it has a text of a kind of its own that is turned into another text than it holds. So what asks for
no such name resolves alike against all four. -/
theorem resolves_as_merged (c : Config) (chain : Chain) (env : Environment) :
    let merged := chain.merged env
    let table := Lookup.ofProperties merged
    let sources := chain.lookup env
    (merged.KeysDiffer ∧ ∀ name, merged.find? (.text name) =
      chain.sources.findSome? fun source => (source.properties env).filled? (.text name)) ∧
    (∀ (source : Source) (now : Environment), source.origin = .table merged →
      c.ResolvesAlike (source.lookup now) sources) ∧
    Lookup.ofValue (.dict merged.entries) = .ok table ∧
    c.ResolvesAlike (.ofValues fun name => (merged.find? (.text name)).getD .null) table ∧
    (∀ name, table name = sources name ↔ merged.ShownAsIs name) ∧
    (∀ bound text,
      (∀ name, .asks name ∈ (c.resolveWithin table bound text).trace → merged.ShownAsIs name) →
        c.resolveWithin table bound text = c.resolveWithin sources bound text) ∧
    ∀ bound value,
      (∀ name, .asks name ∈ (c.resolveValueWithin table bound value).trace →
        merged.ShownAsIs name) →
      c.resolveValueWithin table bound value = c.resolveValueWithin sources bound value := by
  intro merged table sources
  have hshown (name : Text) : merged.shown? name = chain.property? env name :=
    chain.shown?_merged env name
  have hagree (name : Text) : table name = sources name ↔ merged.ShownAsIs name := by
    rw [Properties.shownAsIs_iff, hshown]
    exact ⟨Outcome.done.inj, congrArg Outcome.done⟩
  refine ⟨⟨chain.keysDiffer_merged env, chain.find?_merged env⟩,
    fun source now horigin => .of_eq ?_, rfl, .of_eq ?_, hagree, fun bound text h => ?_,
    fun bound value h => ?_⟩
  · refine congrArg Lookup.ofFunction (funext fun name => ?_)
    rw [← hshown, Source.get?, Source.properties, horigin]
  · refine congrArg Lookup.ofFunction (funext fun name => ?_)
    change ((merged.find? (.text name)).getD .null).present = _
    rw [Properties.get?]
    cases merged.find? (.text name) <;> rfl
  · exact c.resolveWithin_sameIf table sources bound text fun name hname =>
      (hagree name).2 (h name hname)
  · exact resolveValueWithin_sameIf value fun name hname => (hagree name).2 (h name hname)

/-- The member `RED` of a kind `Color` that is derived from texts. It holds `red`. -/
def red : Value :=
  .styled "red".toList ⟨"Color".toList, "Color.RED".toList, "<Color.RED: 'red'>".toList⟩

/-- A source with a text of a kind of its own. -/
def colours : Chain := .ofList
  [{ name := ['m']
     origin := .table ⟨[(.text ['a'], red)]⟩
     name_ne := by simp }]

/-- The chain has the text that `a` is turned into, and the table the one that it holds. -/
theorem colours_resolve_apart :
    (braces.resolveWithin (colours.lookup .empty) 4 ['$', '{', 'a', '}']).outcome =
      .done "Color.RED".toList ∧
    (braces.resolveWithin (.ofProperties (colours.merged .empty)) 4
      ['$', '{', 'a', '}']).outcome = .done "red".toList ∧
    ¬braces.ResolvesAlike (.ofProperties (colours.merged .empty)) (colours.lookup .empty) := by
  have hchain : (braces.resolveWithin (colours.lookup .empty) 4 ['$', '{', 'a', '}']).outcome =
      .done "Color.RED".toList := by decide +kernel
  have htable : (braces.resolveWithin (.ofProperties (colours.merged .empty)) 4
      ['$', '{', 'a', '}']).outcome = .done "red".toList := by decide +kernel
  refine ⟨hchain, htable, fun halike => ?_⟩
  rw [halike.text, hchain] at htable
  exact absurd htable (by decide)

end Config
end ConfigText
