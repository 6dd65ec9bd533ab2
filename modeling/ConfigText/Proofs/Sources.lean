import ConfigText.Chain
import Mathlib

/-!
What tables of texts, sources and chains answer.

A table that is written pair by pair answers with the pair written last. A chain to which sources
are added one behind the other holds each of them once, where it was added last. Sources over env
files have one name exactly if they are of one path, since a path in plain form can be read back
from its text.
-/

namespace ConfigText

/-! ### Tables of texts -/

section Tables

variable {κ ν : Type} [BEq κ] [LawfulBEq κ]

lemma Table.find?_foldl_insert (pairs : List (κ × ν)) (table : Table κ ν) (key : κ) :
    (pairs.foldl (fun table (key, value) => table.insert key value) table).find? key
      = (pairs.reverse.lookup key).or (table.find? key) := by
  induction pairs generalizing table with
  | nil => rfl
  | cons pair more ih =>
    obtain ⟨k, v⟩ := pair
    rw [List.foldl_cons, ih, find?_insert, List.reverse_cons, List.lookup_append, Option.or_assoc]
    cases h : key == k <;> simp [List.lookup_cons, h]

lemma Table.find?_ofList (pairs : List (κ × ν)) (key : κ) :
    (ofList pairs).find? key = pairs.reverse.lookup key := by
  rw [ofList, find?_foldl_insert, find?_empty, Option.or_none]

omit [LawfulBEq κ] in
/-- A key that is there keeps its place, and a new one goes behind. -/
lemma Table.keys_insertInto (key : κ) (value : ν) (pairs : List (κ × ν)) :
    (insertInto key value pairs).map Prod.fst =
      pairs.map Prod.fst ++ if pairs.any (key == ·.1) then [] else [key] := by
  induction pairs with
  | nil => rfl
  | cons pair more ih =>
    obtain ⟨k, v⟩ := pair
    rw [insertInto, List.any_cons]
    cases hk : key == k with
    | true => simp
    | false =>
      rw [if_neg Bool.false_ne_true, List.map_cons, ih, Bool.false_or]
      rfl

lemma Table.nodup_keys_ofList (pairs : List (κ × ν)) :
    ((ofList pairs).entries.map Prod.fst).Nodup := by
  suffices h : ∀ table : Table κ ν, (table.entries.map Prod.fst).Nodup →
      ((pairs.foldl (fun table (key, value) => table.insert key value) table).entries.map
        Prod.fst).Nodup from h .empty List.nodup_nil
  induction pairs with
  | nil => exact fun _ h => h
  | cons pair more ih =>
    intro table h
    refine ih _ ?_
    change ((insertInto pair.1 pair.2 table.entries).map Prod.fst).Nodup
    rw [keys_insertInto]
    split
    · simpa using h
    · next hnew =>
      refine h.append (List.nodup_singleton _) (List.disjoint_singleton.2 fun hmem => hnew ?_)
      obtain ⟨old, hold, hkey⟩ := List.mem_map.1 hmem
      exact List.any_eq_true.2 ⟨old, hold, beq_iff_eq.2 hkey.symm⟩

lemma lookup_eq_some_iff_mem {pairs : List (κ × ν)} (h : (pairs.map Prod.fst).Nodup) {key : κ}
    {value : ν} : pairs.lookup key = some value ↔ (key, value) ∈ pairs := by
  induction pairs with
  | nil => simp
  | cons pair more ih =>
    obtain ⟨k, v⟩ := pair
    rw [List.map_cons, List.nodup_cons] at h
    rw [List.lookup_cons, List.mem_cons, Prod.mk.injEq]
    cases hk : key == k with
    | true =>
      obtain rfl := eq_of_beq hk
      have hnot : (key, value) ∉ more := fun hmem => h.1 (List.mem_map.2 ⟨_, hmem, rfl⟩)
      simp [hnot, eq_comm]
    | false => simp [ih h.2, ne_of_beq_false hk]

/-- Where no key comes twice, the order of the pairs does not matter. -/
lemma lookup_perm {pairs others : List (κ × ν)} (h : (pairs.map Prod.fst).Nodup)
    (hperm : pairs.Perm others) (key : κ) : pairs.lookup key = others.lookup key := by
  have hothers : (others.map Prod.fst).Nodup := (hperm.map Prod.fst).nodup h
  ext value
  rw [lookup_eq_some_iff_mem h, lookup_eq_some_iff_mem hothers, hperm.mem_iff]

omit [LawfulBEq κ] in
/-- Keys may be renamed where they keep apart from the one that is looked up. -/
lemma lookup_map {κ' μ : Type} [BEq κ'] {rename : κ → κ'} {key : κ}
    (hkey : ∀ other, (rename key == rename other) = (key == other)) (f : ν → μ)
    (pairs : List (κ × ν)) :
    (pairs.map fun (key, value) => (rename key, f value)).lookup (rename key)
      = (pairs.lookup key).map f := by
  induction pairs with
  | nil => rfl
  | cons pair more ih =>
    rw [List.map_cons, List.lookup_cons, List.lookup_cons, hkey, ih]
    cases key == pair.1 <;> rfl

end Tables

section Texts

variable {ν : Type} (f : ν → Value)

/-- The pair with its name as a key among keys of any kind. -/
def keyed (pair : Text × ν) : Value × Value := (.text pair.1, f pair.2)

lemma insertInto_map_keyed (pair : Text × ν) (pairs : List (Text × ν)) :
    Table.insertInto (.text pair.1) (f pair.2) (pairs.map (keyed f))
      = (Table.insertInto pair.1 pair.2 pairs).map (keyed f) := by
  induction pairs with
  | nil => rfl
  | cons other more ih =>
    simp only [List.map_cons, keyed, Table.insertInto, Value.sameKey_text] at ih ⊢
    cases pair.1 == other.1 with
    | true => rfl
    | false => simpa [keyed] using ih

lemma ofList_map_keyed (pairs : List (Text × ν)) :
    Table.ofList (pairs.map (keyed f)) = ⟨(Table.ofList pairs).entries.map (keyed f)⟩ := by
  suffices h : ∀ table : Table Text ν,
      (pairs.map (keyed f)).foldl (fun table (key, value) => table.insert key value)
          (⟨table.entries.map (keyed f)⟩ : Properties)
        = ⟨(pairs.foldl (fun table (key, value) => table.insert key value) table).entries.map
            (keyed f)⟩ from h .empty
  induction pairs with
  | nil => exact fun _ => rfl
  | cons pair more ih =>
    intro table
    rw [List.map_cons, List.foldl_cons, List.foldl_cons, ← ih (table.insert pair.1 pair.2)]
    congr 1
    exact congrArg Table.mk (insertInto_map_keyed f pair table.entries)

lemma Properties.find?_keyed (pairs : List (Text × ν)) (name : Text) :
    Table.find? ⟨pairs.map (keyed f)⟩ (.text name) = (pairs.lookup name).map f :=
  lookup_map (Value.sameKey_text name) f pairs

lemma Properties.get?_keyed (pairs : List (Text × ν)) (name : Text) :
    get? ⟨pairs.map (keyed f)⟩ name = (pairs.lookup name).bind fun value => (f value).present := by
  rw [get?, find?_keyed, Option.bind_map]
  rfl

lemma Properties.shown?_keyed (pairs : List (Text × ν)) (name : Text) :
    shown? ⟨pairs.map (keyed f)⟩ name = (pairs.lookup name).bind fun value => (f value).shown := by
  rw [shown?, find?_keyed, Option.bind_map]
  rfl

end Texts

/-- The value of a variable of an env file, which may stand without one. -/
def EnvFile.Content.get? (content : Content) (name : Text) : Option Text :=
  (content.values.find? name).join

lemma shown_elim (value : Option Text) : (value.elim .null Value.text).shown = value := by
  cases value <;> rfl

namespace Source

@[simp] lemma get?_table (env : Environment) (name : Text) (props : Properties)
    (h : name ≠ []) (key : Text) : get? env ⟨name, .table props, h⟩ key = props.shown? key := rfl

@[simp] lemma get?_process (env : Environment) (name : Text) (h : name ≠ []) (key : Text) :
    get? env ⟨name, .process, h⟩ key = env.find? key := by
  refine (Properties.shown?_keyed Value.text env.entries key).trans ?_
  simp [Table.find?]

@[simp] lemma get?_ofEnvFile (env : Environment) (path : Path) (content : EnvFile.Content)
    (key : Text) : (ofEnvFile path content none).get? env key = content.get? key := by
  refine (Properties.shown?_keyed (fun value => value.elim .null .text) content.values.entries
    key).trans ?_
  simp only [shown_elim]
  cases h : content.values.entries.lookup key <;> simp [EnvFile.Content.get?, Table.find?, h]

end Source

/-! ### Paths in plain form -/

namespace Text

variable {mark : Char}

lemma splitAtChar_ne_nil (text : Text) : splitAtChar mark text ≠ [] := by
  cases text with
  | nil => exact nofun
  | cons c rest =>
    rw [splitAtChar]
    split
    · exact nofun
    · split <;> exact nofun

lemma notMem_of_mem_splitAtChar {text part : Text} (h : part ∈ splitAtChar mark text) :
    mark ∉ part := by
  induction text generalizing part with
  | nil =>
    obtain rfl := List.mem_singleton.1 h
    exact List.not_mem_nil
  | cons c rest ih =>
    rw [splitAtChar] at h
    split at h
    · obtain rfl | h := List.mem_cons.1 h
      · exact List.not_mem_nil
      · exact ih h
    · next hc =>
      split at h
      · next hnil => exact absurd hnil (splitAtChar_ne_nil rest)
      · next first parts hs =>
        rw [hs] at ih
        obtain rfl | h := List.mem_cons.1 h
        · rw [List.mem_cons, not_or]
          exact ⟨Ne.symm hc, ih List.mem_cons_self⟩
        · exact ih (List.mem_cons_of_mem _ h)

lemma splitAtChar_of_notMem {part : Text} (h : mark ∉ part) : splitAtChar mark part = [part] := by
  induction part with
  | nil => rfl
  | cons c rest ih =>
    rw [List.mem_cons, not_or] at h
    rw [splitAtChar, if_neg (Ne.symm h.1), ih h.2]

lemma splitAtChar_append {part : Text} (h : mark ∉ part) (rest : Text) :
    splitAtChar mark (part ++ mark :: rest) = part :: splitAtChar mark rest := by
  induction part with
  | nil => rw [List.nil_append, splitAtChar, if_pos rfl]
  | cons c more ih =>
    rw [List.mem_cons, not_or] at h
    rw [List.cons_append, splitAtChar, if_neg (Ne.symm h.1), ih h.2]

lemma splitAtChar_join {parts : List Text} (hne : parts ≠ []) (h : ∀ part ∈ parts, mark ∉ part) :
    splitAtChar mark (join [mark] parts) = parts := by
  induction parts with
  | nil => exact absurd rfl hne
  | cons part more ih =>
    rw [List.forall_mem_cons] at h
    cases more with
    | nil => exact splitAtChar_of_notMem h.1
    | cons next more =>
      rw [join, List.append_assoc, List.singleton_append, splitAtChar_append h.1,
        ih (List.cons_ne_nil _ _) h.2]
      exact nofun

end Text

namespace Path

/-- A path that some text is read as. -/
structure IsPlain (path : Path) : Prop where
  root : path.root = [] ∨ path.root = [slash] ∨ path.root = [slash, slash]
  step : ∀ step ∈ path.steps, step ≠ [] ∧ step ≠ here ∧ slash ∉ step

lemma isPlain_ofText (text : Text) : (ofText text).IsPlain where
  root := by
    change rootOf _ = _ ∨ rootOf _ = _ ∨ rootOf _ = _
    unfold rootOf
    split <;> simp
  step := by
    intro step h
    obtain ⟨hmem, hstep⟩ := List.mem_filter.1 h
    simp only [Bool.and_eq_true, bne_iff_ne] at hstep
    exact ⟨hstep.1, hstep.2, Text.notMem_of_mem_splitAtChar hmem⟩

/-- The text of steps does not begin with a slash. -/
lemma takeWhile_join {steps : List Text}
    (h : ∀ step ∈ steps, step ≠ [] ∧ step ≠ here ∧ slash ∉ step) :
    (Text.join [slash] steps).takeWhile (· == slash) = [] := by
  cases steps with
  | nil => rfl
  | cons step more =>
    obtain ⟨hne, -, hslash⟩ := h step List.mem_cons_self
    obtain ⟨c, rest, rfl⟩ := List.exists_cons_of_ne_nil hne
    have hc : (c == slash) = false := beq_false_of_ne fun hc => hslash (hc ▸ List.mem_cons_self)
    cases more <;> simp [Text.join, hc]

lemma steps_join {steps : List Text}
    (h : ∀ step ∈ steps, step ≠ [] ∧ step ≠ here ∧ slash ∉ step) :
    (Text.splitAtChar slash (Text.join [slash] steps)).filter
      (fun step => step != [] && step != here) = steps := by
  cases steps with
  | nil => rfl
  | cons step more =>
    rw [Text.splitAtChar_join (List.cons_ne_nil _ _) fun step hs => (h step hs).2.2,
      List.filter_eq_self]
    intro step hs
    simpa using ⟨(h step hs).1, (h step hs).2.1⟩

/-- A text of slashes and steps is read as a path of as many slashes and of these steps. -/
lemma ofText_slashes (slashes : ℕ) {steps : List Text}
    (h : ∀ step ∈ steps, step ≠ [] ∧ step ≠ here ∧ slash ∉ step) :
    ofText (List.replicate slashes slash ++ Text.join [slash] steps) = ⟨rootOf slashes, steps⟩ := by
  have hroot : ((List.replicate slashes slash ++ Text.join [slash] steps).takeWhile
      (· == slash)).length = slashes := by
    rw [List.takeWhile_append_of_pos (by simp), takeWhile_join h, List.append_nil,
      List.length_replicate]
  have hsteps : (Text.splitAtChar slash (List.replicate slashes slash
      ++ Text.join [slash] steps)).filter (fun step => step != [] && step != here) = steps := by
    clear hroot
    induction slashes with
    | zero => exact steps_join h
    | succ slashes ih =>
      rw [List.replicate_succ, List.cons_append, Text.splitAtChar, if_pos rfl]
      exact ih
  rw [ofText, hroot, hsteps]

/-- A path in plain form is read back from its text. -/
lemma ofText_toText {path : Path} (h : path.IsPlain) : ofText path.toText = path := by
  obtain ⟨root, steps⟩ := path
  obtain ⟨slashes, rfl, hslashes⟩ : ∃ slashes, root = List.replicate slashes slash ∧
      rootOf slashes = List.replicate slashes slash := by
    obtain h | h | h := h.root
    · exact ⟨0, h, rfl⟩
    · exact ⟨1, h, rfl⟩
    · exact ⟨2, h, rfl⟩
  have hread := ofText_slashes slashes h.step
  rw [toText]
  split
  · next hnil =>
    -- no slash and no step: the path is written as a dot, which is dropped when it is read
    rw [hnil] at hread
    rw [← hslashes, ← hread]
    rfl
  · rw [hread, hslashes]

lemma toText_injOn {path other : Path} (hp : path.IsPlain) (ho : other.IsPlain)
    (h : path.toText = other.toText) : path = other := by
  rw [← ofText_toText hp, h, ofText_toText ho]

end Path

lemma Source.envFileName_inj {path other : Path} (hp : path.IsPlain) (ho : other.IsPlain)
    (h : envFileName path = envFileName other) : path = other :=
  Path.toText_injOn hp ho (List.append_cancel_left h)

/-- Names that begin differently are different. -/
lemma Source.envFileName_ne_of_head {path : Path} {other : Text} (h : other.head? ≠ some 'd') :
    envFileName path ≠ other := by
  rintro rfl
  exact h rfl

/-! ### Chains -/

lemma dedup_concat {α : Type} [DecidableEq α] (items : List α) (item : α) :
    (items ++ [item]).dedup = items.dedup.filter (· ≠ item) ++ [item] := by
  induction items with
  | nil => rfl
  | cons first more ih =>
    rw [List.cons_append]
    by_cases hf : first = item
    · subst hf
      rw [List.dedup_cons_of_mem (by simp), ih]
      by_cases hm : first ∈ more
      · rw [List.dedup_cons_of_mem hm]
      · rw [List.dedup_cons_of_notMem hm, List.filter_cons_of_neg (by simp)]
    · by_cases hm : first ∈ more
      · rw [List.dedup_cons_of_mem (by simp [hm]), List.dedup_cons_of_mem hm, ih]
      · rw [List.dedup_cons_of_notMem (by simp [hm, hf]), List.dedup_cons_of_notMem hm, ih,
          List.filter_cons_of_pos (by simp [hf]), List.cons_append]

namespace Chain

variable {α : Type} {source : α → Source}

lemma without_eq_self {sources : List Source} {name : Text} (h : name ∉ sources.map Source.name) :
    without sources name = sources := by
  refine List.eraseP_of_forall_not fun other hother heq => h ?_
  exact eq_of_beq heq ▸ List.mem_map_of_mem hother

/-- Sources added one behind the other stand behind those of the chain, each where it was added
last. -/
lemma sources_foldl_addLast [DecidableEq α] (chain : Chain) {items : List α}
    (hinj : ∀ a ∈ items, ∀ b ∈ items, (source a).name = (source b).name → a = b)
    (hnew : ∀ a ∈ items, (source a).name ∉ chain.names) :
    (items.foldl (fun chain item => chain.addLast (source item)) chain).sources
      = chain.sources ++ items.dedup.map source := by
  -- from the back: what is added last drops the source of its name from all that is there
  induction items using List.reverseRecOn with
  | nil => simp
  | append_singleton items item ih =>
    have ih := ih (fun a ha b hb => hinj a (by simp [ha]) b (by simp [hb]))
      fun a ha => hnew a (by simp [ha])
    have hitem : item ∈ items ++ [item] := by simp
    rw [List.foldl_append, List.foldl_cons, List.foldl_nil, dedup_concat]
    change without _ _ ++ [source item] = _
    rw [without_eq_filter _ (Chain.distinct _), ih, List.filter_append, List.filter_map,
      List.map_append, ← List.append_assoc]
    congr 2
    · rw [← without_eq_filter _ chain.distinct, without_eq_self (hnew item hitem)]
    · refine congrArg (List.map source) (List.filter_congr fun other hother => ?_)
      have hother : other ∈ items ++ [item] := by simp [List.mem_dedup.1 hother]
      by_cases h : other = item
      · simp [h]
      · have : (source other).name ≠ (source item).name := fun hn => h (hinj _ hother _ hitem hn)
        simp [h, this]

lemma names_foldl_addLast (chain : Chain) {items : List α} {name : Text}
    (hname : name ∈ (items.foldl (fun chain item => chain.addLast (source item)) chain).names) :
    name ∈ chain.names ∨ ∃ item ∈ items, (source item).name = name := by
  induction items generalizing chain with
  | nil => exact .inl hname
  | cons item more ih =>
    obtain h | ⟨other, hother, h⟩ := ih _ hname
    · obtain ⟨found, hfound, rfl⟩ := List.mem_map.1 h
      obtain hfound | hfound := List.mem_append.1 hfound
      · exact .inl (List.mem_map_of_mem (List.mem_of_mem_eraseP hfound))
      · exact .inr ⟨item, List.mem_cons_self, by rw [List.mem_singleton.1 hfound]⟩
    · exact .inr ⟨other, List.mem_cons_of_mem _ hother, h⟩

/-- Such sources are asked after those of the chain. -/
lemma property?_foldl_addLast [DecidableEq α] (chain : Chain) {items : List α}
    (hinj : ∀ a ∈ items, ∀ b ∈ items, (source a).name = (source b).name → a = b)
    (hnew : ∀ a ∈ items, (source a).name ∉ chain.names) (env : Environment) (name : Text) :
    (items.foldl (fun chain item => chain.addLast (source item)) chain).property? env name
      = (chain.property? env name).or
          (items.dedup.findSome? fun item => (source item).get? env name) := by
  rw [property?, sources_foldl_addLast chain hinj hnew, List.findSome?_append, List.findSome?_map]
  rfl

/-- A source with a new name is asked after those of the chain. -/
lemma property?_addLast (chain : Chain) {source : Source} (h : source.name ∉ chain.names)
    (env : Environment) (name : Text) :
    (chain.addLast source).property? env name
      = (chain.property? env name).or (source.get? env name) := by
  change List.findSome? _ (without _ _ ++ [source]) = _
  rw [without_eq_self h, List.findSome?_append, List.findSome?_singleton]
  rfl

end Chain
end ConfigText
