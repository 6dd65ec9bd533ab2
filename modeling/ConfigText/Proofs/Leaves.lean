import ConfigText.Lookup
import ConfigText.Proofs.Paths
import Mathlib

/-!
A nested value resolves text by text.

The texts of a value are resolved from left to right, each by itself: forgetting all but the texts,
the run of the value is that of the list of its texts. What comes out has the same shape, and a text
that fails ends the run there.
-/

namespace ConfigText

namespace Value

mutual

/-- The texts in a value from left to right, those in keys of dictionaries apart. -/
def texts : Value → List Text
  | text t => [t]
  | styled t _ => [t]
  | list items => textsOfItems items
  | tuple items => textsOfItems items
  | dict entries => textsOfEntries entries
  | null => []
  | bool _ => []
  | int _ => []
  | float _ => []
  | bytes _ _ => []

def textsOfItems : List Value → List Text
  | [] => []
  | item :: more => texts item ++ textsOfItems more

def textsOfEntries : List (Value × Value) → List Text
  | [] => []
  | (_, value) :: more => texts value ++ textsOfEntries more

end

mutual

/-- The second value is the first one with each text, those in keys of dictionaries apart, replaced
by a related one: containers, their order, keys and all other leaves are the same. A text of a kind
of its own may become a plain one. -/
inductive Leafwise (R : Text → Text → Prop) : Value → Value → Prop
  | null : Leafwise R null null
  | bool (b : Bool) : Leafwise R (bool b) (bool b)
  | int (n : Int) : Leafwise R (int n) (int n)
  | float (x : Binary64) : Leafwise R (float x) (float x)
  | bytes (content : List UInt8) (mutable : Bool) :
    Leafwise R (bytes content mutable) (bytes content mutable)
  | text {t new : Text} : R t new → Leafwise R (text t) (text new)
  | styled {t new : Text} (style : Style) :
    R t new → Leafwise R (styled t style) (styled new style)
  | plain {t new : Text} (style : Style) : R t new → Leafwise R (styled t style) (text new)
  | list {items news : List Value} :
    ItemsLeafwise R items news → Leafwise R (list items) (list news)
  | tuple {items news : List Value} :
    ItemsLeafwise R items news → Leafwise R (tuple items) (tuple news)
  | dict {entries news : List (Value × Value)} :
    EntriesLeafwise R entries news → Leafwise R (dict entries) (dict news)

inductive ItemsLeafwise (R : Text → Text → Prop) : List Value → List Value → Prop
  | nil : ItemsLeafwise R [] []
  | cons {item new : Value} {more news : List Value} : Leafwise R item new →
    ItemsLeafwise R more news → ItemsLeafwise R (item :: more) (new :: news)

inductive EntriesLeafwise (R : Text → Text → Prop) :
    List (Value × Value) → List (Value × Value) → Prop
  | nil : EntriesLeafwise R [] []
  | cons {key value new : Value} {more news : List (Value × Value)} : Leafwise R value new →
    EntriesLeafwise R more news → EntriesLeafwise R ((key, value) :: more) ((key, new) :: news)

end

end Value

namespace Run

variable {α β : Type} {f g : α → Run β} {items : List α}

lemma mapM_congr (h : ∀ a ∈ items, f a = g a) : items.mapM f = items.mapM g := by
  induction items with
  | nil => rfl
  | cons a items ih =>
    obtain ⟨ha, hitems⟩ := List.forall_mem_cons.1 h
    rw [List.mapM_cons, List.mapM_cons, ha, ih hitems]

/-- Runs that all return do so one after the other. -/
lemma mapM_of_done (h : ∀ a ∈ items, ∃ b, (f a).outcome = .done b) :
    ∃ results, items.mapM f = ⟨items.flatMap fun a => (f a).trace, .done results⟩ := by
  induction items with
  | nil => exact ⟨[], rfl⟩
  | cons a items ih =>
    obtain ⟨⟨b, ha⟩, hitems⟩ := List.forall_mem_cons.1 h
    obtain ⟨results, hresults⟩ := ih hitems
    have hdone : (items.mapM f).outcome = .done results := by rw [hresults]
    refine ⟨b :: results, ?_⟩
    rw [List.mapM_cons, bind_of_done ha, bind_of_done hdone, hresults]
    simp

/-- Where the runs before it return, the first run that fails is the last one. -/
lemma mapM_of_failed {a : α} {failure : Failure} (h : ∀ a ∈ items, ∃ b, (f a).outcome = .done b)
    (ha : (f a).outcome = .failed failure) (more : List α) :
    (items ++ a :: more).mapM f =
      ⟨(items ++ [a]).flatMap fun a => (f a).trace, .failed failure⟩ := by
  obtain ⟨results, hresults⟩ := mapM_of_done h
  have hitems : (items.mapM f).outcome = .done results := by rw [hresults]
  have hrest : (a :: more).mapM f = ⟨(f a).trace, .failed failure⟩ := by
    rw [List.mapM_cons, bind_of_failed ha]
  have hfailed : ((a :: more).mapM f).outcome = .failed failure := by rw [hrest]
  rw [List.mapM_append, bind_of_done hitems, bind_of_failed hfailed, hresults, hrest]
  simp

lemma asked_eq_flatMap {γ : Type} {run : Run γ}
    (h : run.trace = items.flatMap fun a => (f a).trace) :
    run.asked = items.flatMap fun a => (f a).asked := by
  rw [asked, h, List.filterMap_flatMap]
  rfl

end Run

namespace Config

variable {c : Config} {lookup : Lookup} {bound : ℕ}

@[simp] lemma texts_restyled (style : Style) (trace : List Event) (result : Text) :
    (Value.restyled style trace result).texts = [result] := by
  unfold Value.restyled
  split <;> rfl

mutual

lemma map_texts_resolveValueWithin (value : Value) :
    Value.texts <$> c.resolveValueWithin lookup bound value =
      value.texts.mapM (c.resolveWithin lookup bound) := by
  cases value with
  | text t => simp [resolveValueWithin, Value.texts]
  | styled t style => simp [resolveValueWithin, Value.texts]
  | list items =>
    rw [resolveValueWithin, Value.texts, ← map_texts_resolveItemsWithin items]
    simp [Value.texts]
  | tuple items =>
    rw [resolveValueWithin, Value.texts, ← map_texts_resolveItemsWithin items]
    simp [Value.texts]
  | dict entries =>
    rw [resolveValueWithin, Value.texts, ← map_texts_resolveEntriesWithin entries]
    simp [Value.texts]
  | null => rfl
  | bool b => rfl
  | int n => rfl
  | float x => rfl
  | bytes content mutable => rfl

lemma map_texts_resolveItemsWithin (items : List Value) :
    Value.textsOfItems <$> c.resolveItemsWithin lookup bound items =
      (Value.textsOfItems items).mapM (c.resolveWithin lookup bound) := by
  cases items with
  | nil => rfl
  | cons item more =>
    rw [resolveItemsWithin, Value.textsOfItems, List.mapM_append,
      ← map_texts_resolveValueWithin item, ← map_texts_resolveItemsWithin more]
    simp [Value.textsOfItems]

lemma map_texts_resolveEntriesWithin (entries : List (Value × Value)) :
    Value.textsOfEntries <$> c.resolveEntriesWithin lookup bound entries =
      (Value.textsOfEntries entries).mapM (c.resolveWithin lookup bound) := by
  cases entries with
  | nil => rfl
  | cons entry more =>
    obtain ⟨key, value⟩ := entry
    rw [resolveEntriesWithin, Value.textsOfEntries, List.mapM_append,
      ← map_texts_resolveValueWithin value, ← map_texts_resolveEntriesWithin more]
    simp [Value.textsOfEntries]

end

mutual

/-- A value that resolves keeps its shape, and each of its texts is replaced by what it resolves
to. -/
lemma leafwise_of_resolveValueWithin {value result : Value}
    (h : (c.resolveValueWithin lookup bound value).outcome = .done result) :
    value.Leafwise (fun t new => c.Ends lookup t (.done new)) result := by
  cases value with
  | text t =>
    obtain ⟨new, hnew, he⟩ := Run.outcome_bind_done.1 h
    obtain rfl : .text new = result := Outcome.done.inj he
    exact .text (ends_of_outcome bound hnew (by simp))
  | styled t style =>
    obtain ⟨new, hnew, he⟩ := Run.outcome_bind_done.1 h
    obtain rfl := Outcome.done.inj he
    have hends : c.Ends lookup t (.done new) := ends_of_outcome bound hnew (by simp)
    unfold Value.restyled
    split
    · exact .plain style hends
    · exact .styled style hends
  | list items =>
    obtain ⟨news, hnews, he⟩ := Run.outcome_bind_done.1 h
    obtain rfl : .list news = result := Outcome.done.inj he
    exact .list (itemsLeafwise_of_resolveItemsWithin hnews)
  | tuple items =>
    obtain ⟨news, hnews, he⟩ := Run.outcome_bind_done.1 h
    obtain rfl : .tuple news = result := Outcome.done.inj he
    exact .tuple (itemsLeafwise_of_resolveItemsWithin hnews)
  | dict entries =>
    obtain ⟨news, hnews, he⟩ := Run.outcome_bind_done.1 h
    obtain rfl : .dict news = result := Outcome.done.inj he
    exact .dict (entriesLeafwise_of_resolveEntriesWithin hnews)
  | null =>
    obtain rfl : .null = result := Outcome.done.inj h
    exact .null
  | bool b =>
    obtain rfl : .bool b = result := Outcome.done.inj h
    exact .bool b
  | int n =>
    obtain rfl : .int n = result := Outcome.done.inj h
    exact .int n
  | float x =>
    obtain rfl : .float x = result := Outcome.done.inj h
    exact .float x
  | bytes content mutable =>
    obtain rfl : .bytes content mutable = result := Outcome.done.inj h
    exact .bytes content mutable

lemma itemsLeafwise_of_resolveItemsWithin {items news : List Value}
    (h : (c.resolveItemsWithin lookup bound items).outcome = .done news) :
    Value.ItemsLeafwise (fun t new => c.Ends lookup t (.done new)) items news := by
  cases items with
  | nil =>
    obtain rfl : [] = news := Outcome.done.inj h
    exact .nil
  | cons item more =>
    obtain ⟨new, hnew, h⟩ := Run.outcome_bind_done.1 h
    obtain ⟨rest, hrest, he⟩ := Run.outcome_bind_done.1 h
    obtain rfl : new :: rest = news := Outcome.done.inj he
    exact .cons (leafwise_of_resolveValueWithin hnew) (itemsLeafwise_of_resolveItemsWithin hrest)

lemma entriesLeafwise_of_resolveEntriesWithin {entries news : List (Value × Value)}
    (h : (c.resolveEntriesWithin lookup bound entries).outcome = .done news) :
    Value.EntriesLeafwise (fun t new => c.Ends lookup t (.done new)) entries news := by
  cases entries with
  | nil =>
    obtain rfl : [] = news := Outcome.done.inj h
    exact .nil
  | cons entry more =>
    obtain ⟨key, value⟩ := entry
    obtain ⟨new, hnew, h⟩ := Run.outcome_bind_done.1 h
    obtain ⟨rest, hrest, he⟩ := Run.outcome_bind_done.1 h
    obtain rfl : (key, new) :: rest = news := Outcome.done.inj he
    exact .cons (leafwise_of_resolveValueWithin hnew)
      (entriesLeafwise_of_resolveEntriesWithin hrest)

end

/-- With enough nesting allowed each of finitely many texts takes its course. -/
lemma exists_bound_of_resolves {texts : List Text} {course : Text → Run Text}
    (h : ∀ t ∈ texts, c.Resolves lookup t (course t)) :
    ∃ bound, ∀ more ≥ bound, ∀ t ∈ texts, c.resolveWithin lookup more t = course t := by
  induction texts with
  | nil => exact ⟨0, by simp⟩
  | cons t texts ih =>
    obtain ⟨htext, htexts⟩ := List.forall_mem_cons.1 h
    obtain ⟨bound, hbound⟩ := ih htexts
    obtain ⟨least, hleast⟩ := htext.eventually
    refine ⟨max least bound, fun more hmore => List.forall_mem_cons.2 ⟨?_, ?_⟩⟩
    · exact hleast more ((le_max_left least bound).trans hmore)
    · exact hbound more ((le_max_right least bound).trans hmore)

/-- **A nested value resolves text by text.** Let each text of the value take its course when it is
resolved by itself. If all of them return, then the value returns, in the same shape, with the same
keys and other leaves, and with each text replaced by what it resolves to. If one fails for which
all texts to the left of it return, then the value fails for the same reason. What is done and asked
for on the way is what the texts do and ask for by themselves, one after the other. -/
theorem resolveValueWithin_by_texts (c : Config) (lookup : Lookup) (value : Value)
    {course : Text → Run Text} (hcourse : ∀ t ∈ value.texts, c.Resolves lookup t (course t)) :
    ∃ bound, ∀ more ≥ bound,
      let run := c.resolveValueWithin lookup more value
      ((∀ t ∈ value.texts, ∃ new, (course t).outcome = .done new) →
        (∃ result, run.outcome = .done result ∧
          value.Leafwise (fun t new => c.Ends lookup t (.done new)) result) ∧
        run.trace = (value.texts.flatMap fun t => (course t).trace) ∧
        run.asked = value.texts.flatMap fun t => (course t).asked) ∧
      ∀ before t after failure, value.texts = before ++ t :: after →
        (∀ other ∈ before, ∃ new, (course other).outcome = .done new) →
        (course t).outcome = .failed failure →
        run.outcome = .failed failure ∧
        run.trace = ((before ++ [t]).flatMap fun other => (course other).trace) ∧
        run.asked = (before ++ [t]).flatMap fun other => (course other).asked := by
  obtain ⟨bound, hbound⟩ := exists_bound_of_resolves hcourse
  refine ⟨bound, fun more hmore => ?_⟩
  intro run
  have htexts : Value.texts <$> run = value.texts.mapM course := by
    rw [map_texts_resolveValueWithin, Run.mapM_congr (hbound more hmore)]
  have htrace : run.trace = (value.texts.mapM course).trace := by rw [← htexts, Run.trace_map]
  constructor
  · intro hreturns
    obtain ⟨news, hnews⟩ := Run.mapM_of_done hreturns
    rw [hnews] at htexts htrace
    obtain ⟨result, hresult, -⟩ := Run.outcome_map_done.1 (congrArg Run.outcome htexts)
    exact ⟨⟨result, hresult, leafwise_of_resolveValueWithin hresult⟩, htrace,
      Run.asked_eq_flatMap htrace⟩
  · intro before t after failure hsplit hbefore hfails
    rw [hsplit, Run.mapM_of_failed hbefore hfails] at htexts htrace
    have hfailed := Run.outcome_map_failed.1 (congrArg Run.outcome htexts)
    exact ⟨hfailed, htrace, Run.asked_eq_flatMap htrace⟩

/-- Values for `a` and `b`, where that of `b` refers to the one of `a`. -/
def twoNames : Lookup := .ofProperties
  ⟨[(.text ['a'], .text ['x']), (.text ['b'], .text ['$', '{', 'a', '}', 'y'])]⟩

/-- A dictionary with a list and a tuple in it, and a key that is a placeholder. -/
def nestedValue : Value :=
  .dict [(.text ['$', '{', 'a', '}'], .list [.text ['$', '{', 'b', '}'], .int 7]),
    (.text ['t'], .tuple [.text ['$', '{', 'a', '}'], .null])]

/-- A list with a text in the middle that asks for `m`. -/
def brokenValue : Value :=
  .list [.text ['$', '{', 'a', '}'], .tuple [.text ['$', '{', 'm', '}']],
    .text ['$', '{', 'b', '}']]

/-- The dictionary resolves, with `b` and what it needs asked for first. The list fails at `m`, and
nothing behind it is asked for. -/
theorem resolveValueWithin_twoNames :
    let strict : Config := { braces with lenient := false }
    let course := strict.resolveWithin twoNames 4
    (∀ t ∈ nestedValue.texts, strict.Resolves twoNames t (course t)) ∧
    (∀ t ∈ brokenValue.texts, strict.Resolves twoNames t (course t)) ∧
    (∃ bound, ∀ more ≥ bound,
      let run := strict.resolveValueWithin twoNames more nestedValue
      (∃ result, run.outcome = .done result ∧
        nestedValue.Leafwise (fun t new => strict.Ends twoNames t (.done new)) result) ∧
      run.asked = [['b'], ['a'], ['a']]) ∧
    ∃ bound, ∀ more ≥ bound,
      let run := strict.resolveValueWithin twoNames more brokenValue
      run.outcome = .failed (.unresolvable ['m'] ['$', '{', 'm', '}']) ∧
      run.asked = [['a'], ['m']] := by
  intro strict course
  have hnested : ∀ t ∈ nestedValue.texts, strict.Resolves twoNames t (course t) :=
    fun t ht => resolves_of_ne 4 (by revert t; decide +kernel)
  have hbroken : ∀ t ∈ brokenValue.texts, strict.Resolves twoNames t (course t) :=
    fun t ht => resolves_of_ne 4 (by revert t; decide +kernel)
  have ha : (course ['$', '{', 'a', '}']).outcome = .done ['x'] := by decide +kernel
  have hb : (course ['$', '{', 'b', '}']).outcome = .done ['x', 'y'] := by decide +kernel
  have hm : (course ['$', '{', 'm', '}']).outcome =
      .failed (.unresolvable ['m'] ['$', '{', 'm', '}']) := by decide +kernel
  refine ⟨hnested, hbroken, ?_, ?_⟩
  · obtain ⟨bound, hbound⟩ := resolveValueWithin_by_texts strict twoNames nestedValue hnested
    refine ⟨bound, fun more hmore => ?_⟩
    have hreturns : ∀ t ∈ nestedValue.texts, ∃ new, (course t).outcome = .done new := by
      simp [nestedValue, Value.texts, Value.textsOfEntries, Value.textsOfItems, ha, hb]
    obtain ⟨hdone, -, hasked⟩ := (hbound more hmore).1 hreturns
    exact ⟨hdone, hasked.trans (by decide +kernel)⟩
  · obtain ⟨bound, hbound⟩ := resolveValueWithin_by_texts strict twoNames brokenValue hbroken
    refine ⟨bound, fun more hmore => ?_⟩
    obtain ⟨hfailed, -, hasked⟩ := (hbound more hmore).2 [['$', '{', 'a', '}']]
      ['$', '{', 'm', '}'] [['$', '{', 'b', '}']] _ rfl (by simp [ha]) hm
    exact ⟨hfailed, hasked.trans (by decide +kernel)⟩

end Config
end ConfigText
