import ConfigText.Source

/-!
Chains of sources, asked from first to last. No two sources of a chain have one name: a source
that is added takes the place of one with its name, wherever that stood.
-/

namespace ConfigText

structure Chain where
  sources : List Source
  distinct : (sources.map Source.name).Nodup

namespace Chain

def empty : Chain := ⟨[], by simp⟩

/-- The sources without the first one of a name. -/
def without (sources : List Source) (name : Text) : List Source :=
  sources.eraseP (·.name == name)

theorem nodup_without {sources : List Source} (name : Text)
    (h : (sources.map Source.name).Nodup) : ((without sources name).map Source.name).Nodup :=
  h.sublist (List.eraseP_sublist.map _)

/-- Where no name comes twice, all sources of a name are taken out with the first one. -/
theorem without_eq_filter {sources : List Source} (name : Text)
    (h : (sources.map Source.name).Nodup) :
    without sources name = sources.filter (·.name != name) := by
  induction sources with
  | nil => rfl
  | cons source more ih =>
    rw [List.map_cons, List.nodup_cons] at h
    rw [without, List.eraseP_cons]
    cases hname : source.name == name with
    | true =>
      obtain rfl := eq_of_beq hname
      have hmore : more.filter (·.name != source.name) = more := by
        refine List.filter_eq_self.2 fun other hother => bne_iff_ne.2 fun heq => h.1 ?_
        exact heq ▸ List.mem_map_of_mem hother
      simp [hmore]
    | false => simpa [without, bne, hname] using ih h.2

theorem name_notMem_without {sources : List Source} (name : Text)
    (h : (sources.map Source.name).Nodup) : name ∉ (without sources name).map Source.name := by
  simp [without_eq_filter name h]

/-- What can be done to the sources of a chain. -/
inductive Change
  | addFirst (source : Source)
  | addLast (source : Source)
  | remove (name : Text)

/-- The sources after a change. A source that is added is put in front of all others, or behind
them. -/
def Change.apply (sources : List Source) : Change → List Source
  | addFirst source => source :: without sources source.name
  | addLast source => without sources source.name ++ [source]
  | remove name => without sources name

theorem Change.nodup_apply {sources : List Source} (h : (sources.map Source.name).Nodup)
    (change : Change) : ((change.apply sources).map Source.name).Nodup := by
  cases change with
  | addFirst source =>
    rw [apply, List.map_cons, List.nodup_cons]
    exact ⟨name_notMem_without _ h, nodup_without _ h⟩
  | addLast source =>
    rw [apply, List.map_append, List.map_singleton, List.nodup_append]
    refine ⟨nodup_without _ h, by simp, ?_⟩
    intro name hname name' hname' heq
    rw [List.mem_singleton] at hname'
    subst hname' heq
    exact name_notMem_without _ h hname
  | remove name => exact nodup_without name h

variable (chain : Chain)

/-- The chain after a change. -/
def after (change : Change) : Chain :=
  ⟨change.apply chain.sources, change.nodup_apply chain.distinct⟩

/-- The chain with a source in front of all others. -/
def addFirst (source : Source) : Chain := chain.after (.addFirst source)

/-- The chain with a source behind all others. -/
def addLast (source : Source) : Chain := chain.after (.addLast source)

/-- The chain without the source of a name. -/
def remove (name : Text) : Chain := chain.after (.remove name)

/-- The source of a name. -/
def get? (name : Text) : Option Source := chain.sources.find? (·.name == name)

def contains (name : Text) : Bool := (chain.get? name).isSome

/-- The source of a name, and the chain without it. -/
def takeOut (name : Text) : Option Source × Chain := (chain.get? name, chain.remove name)

/-- The chain of sources added one behind the other. -/
def ofList (sources : List Source) : Chain := sources.foldl addLast empty

def names : List Text := chain.sources.map Source.name

def size : Nat := chain.sources.length

/-- The chain with one property of one source written over. -/
def put (source name : Text) (value : Value) : Chain where
  sources := chain.sources.map fun s => if s.name = source then s.put name value else s
  distinct := by
    have : (chain.sources.map fun s => if s.name = source then s.put name value else s).map
        Source.name = chain.sources.map Source.name := by
      rw [List.map_map]
      refine List.map_congr_left fun s _ => ?_
      simp only [Function.comp_apply]
      split <;> simp
    rw [this]
    exact chain.distinct

/-- The first source that has a value for a name, and the value. -/
def provider? (env : Environment) (name : Text) : Option (Source × Text) :=
  chain.sources.findSome? fun source => (source.get? env name).map (source, ·)

/-- The first value that a source has for a name. -/
def property? (env : Environment) (name : Text) : Option Text :=
  chain.sources.findSome? (·.get? env name)

/-- The chain as a lookup. -/
def lookup (env : Environment) : Lookup := .ofFunction (chain.property? env)

/-- The chain in one line. -/
def shown : Text :=
  "PropertySources([".toList ++ Text.join [',', ' '] chain.names ++ "])".toList

end Chain
end ConfigText
