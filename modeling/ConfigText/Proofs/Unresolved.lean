import ConfigText.Proofs.Answers
import ConfigText.Proofs.Leftovers
import Mathlib

/-!
What the server lists as unresolved.

The list is not kept while resolving, it is read off the resolved text. A placeholder of this text
that the run has left in place is there since its key has no value, and a strict run that succeeds
leaves none. But a placeholder may also be made up of a value and of what stands beside it, and that
is listed as well. Where the text and the values that are found are tidy there is none of this kind.
-/

namespace ConfigText

namespace Config

variable {c : Config} {value : Text → Option Text} {text key : Text} {bound : ℕ}

/-- The text is a placeholder that the run has left in place, since there is neither a value nor a
default for what its key expands to. -/
def LeftInPlace (c : Config) (value : Text → Option Text) (run : Run Text) (text : Text) : Prop :=
  ∃ key name, text = c.enclose key ∧ .keeps key ∈ run.trace ∧
    (∃ bound, (c.expandAt (.ofFunction value) bound [key] 1 key).outcome = .done name) ∧
    value name = none ∧ (c.split name).2 = none

lemma leftInPlace_enclose_iff :
    c.LeftInPlace value (c.resolveWithin (.ofFunction value) bound text) (c.enclose key) ↔
      .keeps key ∈ (c.resolveWithin (.ofFunction value) bound text).trace := by
  constructor
  · rintro ⟨key', name, hkey, hkeeps, -⟩
    obtain rfl : key = key' := List.append_cancel_left (List.append_cancel_right hkey)
    exact hkeeps
  · intro hkeeps
    obtain ⟨-, name, hn, hv⟩ := lacks_of_keeps (resolveWithin_eq bound text ▸ hkeeps)
    rw [valueAt, Option.or_eq_none_iff, Option.map_eq_none_iff] at hv
    exact ⟨key, name, rfl, hkeeps, ⟨bound, hn⟩, hv⟩

/-- Where the strict run succeeds no placeholder is left in place. -/
lemma not_keeps_of_strict_done {result : Text}
    (h : ((c.withPolicy false).resolveWithin (.ofFunction value) bound text).outcome
      = .done result) :
    .keeps key ∉ (c.resolveWithin (.ofFunction value) bound text).trace := by
  intro hkeeps
  have hlenient : c.lenient = true := (lacks_of_keeps (resolveWithin_eq bound text ▸ hkeeps)).1
  have hself : c.withPolicy true = c := by rw [← hlenient]; rfl
  have heq := (resolveWithin_withPolicy_stopsAt c (.ofFunction value) bound text).eq
    fun e he => nomatch h.symm.trans he
  rw [← hself, ← heq] at hkeeps
  obtain ⟨e, he, -⟩ := resolveWithin_strict_failsAfter c value bound text _ hkeeps ⟨key, rfl⟩
  cases h.symm.trans he

end Config

namespace Server

variable {server : Server} {env : Environment} {request : Request} {asked : ResolveRequest}
  {c : Config} {result : Text} {bound : ℕ}

/-- A successful answer lists these texts as unresolved. -/
def Answer.Lists (answer : Answer) (texts : List Text) : Prop :=
  ∃ body, answer = .json 200 body ∧ body.member? "unresolved" = some (.ofTexts texts)

lemma resolveAnswer_lists
    (h : (c.resolveWithin ((chainOf asked).lookup env) bound asked.text).outcome =
      .done result) :
    (resolveAnswer bound c env asked).Lists ((c.placeholders result).map Placeholder.whole) := by
  rw [resolveAnswer, h]
  exact ⟨_, rfl, rfl⟩

/-- A successful answer to a request for resolving is made with a configuration under which the text
resolves. -/
lemma exists_of_status_ok (hasks : request.Asks (.resolve asked))
    (hok : (server.handleWithin bound env request).1.status? = some 200) :
    ∃ c result, server.configFor asked.overrides = .ok c ∧
      (c.resolveWithin ((chainOf asked).lookup env) bound asked.text).outcome = .done result ∧
      (server.handleWithin bound env request).1 = resolveAnswer bound c env asked := by
  rw [handleWithin_of_asks env hasks] at hok ⊢
  cases hc : server.configFor asked.overrides with
  | error fault =>
    by_cases hnone : asked.overrides = .none
    · rw [Accepted.overrides, hnone, withConfig_none_of_error (hnone ▸ hc)] at hok
      cases hok
    · rw [Accepted.overrides, withConfig_of_error hnone hc] at hok
      split at hok <;> cases hok
  | ok c =>
    rw [Accepted.overrides, withConfig_of_ok hc, Accepted.answer] at hok ⊢
    have hshows := resolveAnswer_shows bound c env asked
    cases hrun : (c.resolveWithin ((chainOf asked).lookup env) bound asked.text).outcome with
    | done result => exact ⟨c, result, rfl, hrun, rfl⟩
    | failed failure =>
      rw [hrun] at hshows
      obtain hstatus | hstatus := (status?_failed failure).1 <;>
        cases hok.symm.trans ((congrArg Answer.status? hshows).trans hstatus)
    | exhausted =>
      rw [hrun] at hshows
      cases hok.symm.trans hshows.1

/-- **What is listed as unresolved.** A successful answer lists the placeholders of the resolved
text. Those that the run has left in place have neither a value nor a default, and there are none of
them if the strict run succeeds. All that is listed has been left in place where the text and the
values that are found are tidy; then nothing is listed if the strict run succeeds. -/
theorem listed_has_no_value (server : Server) (bound : ℕ) (env : Environment) {request : Request}
    {asked : ResolveRequest} (hasks : request.Asks (.resolve asked))
    (hok : (server.handleWithin bound env request).1.status? = some 200) :
    let value := (chainOf asked).property? env
    ∃ c result, server.configFor asked.overrides = .ok c ∧
      let run := c.resolveWithin (.ofFunction value) bound asked.text
      let strictRun := (c.withPolicy false).resolveWithin (.ofFunction value) bound asked.text
      run.outcome = .done result ∧
      (server.handleWithin bound env request).1.Lists
        ((c.placeholders result).map Placeholder.whole) ∧
      (∀ p ∈ c.placeholders result,
        c.LeftInPlace value run p.whole ↔ .keeps p.key ∈ run.trace) ∧
      ((∃ other, strictRun.outcome = .done other) →
        ∀ p ∈ c.placeholders result, ¬c.LeftInPlace value run p.whole) ∧
      ((∀ ch ∈ c.opener, ch ∉ c.closer) →
        (∀ ch ∈ (c.separator.getD []).getLast?, ch ∉ c.opener) → c.Tidy asked.text →
        (∀ name new, .asks name ∈ run.trace → value name = some new → c.Tidy new) →
        (∀ p ∈ c.placeholders result, c.LeftInPlace value run p.whole) ∧
        ((∃ other, strictRun.outcome = .done other) → c.placeholders result = [])) := by
  intro value
  obtain ⟨c, result, hc, hdone, hanswer⟩ := exists_of_status_ok hasks hok
  have hkept {p : Placeholder} (hp : p ∈ c.placeholders result) :
      c.LeftInPlace value (c.resolveWithin (.ofFunction value) bound asked.text) p.whole ↔
        .keeps p.key ∈ (c.resolveWithin (.ofFunction value) bound asked.text).trace := by
    rw [Config.placeholders_eq] at hp
    rw [(Config.eq_of_mem_placeholdersAt hp).1]
    exact Config.leftInPlace_enclose_iff
  have hstrict : (∃ other, ((c.withPolicy false).resolveWithin (.ofFunction value) bound
        asked.text).outcome = .done other) →
      ∀ p ∈ c.placeholders result,
        ¬c.LeftInPlace value (c.resolveWithin (.ofFunction value) bound asked.text) p.whole :=
    fun ⟨other, hother⟩ p hp hleft => Config.not_keeps_of_strict_done hother ((hkept hp).1 hleft)
  refine ⟨c, result, hc, hdone, hanswer ▸ resolveAnswer_lists hdone, fun p hp => hkept hp, hstrict,
    fun hdisjoint hlast htext hvalue => ?_⟩
  have hall : ∀ p ∈ c.placeholders result,
      c.LeftInPlace value (c.resolveWithin (.ofFunction value) bound asked.text) p.whole := by
    intro p hp
    refine (hkept hp).2 ?_
    rw [Config.placeholders_eq] at hp
    simp only [Config.resolveWithin_eq, Chain.lookup] at hvalue hdone ⊢
    exact (Config.settled_of_expandAt hdisjoint hlast htext hvalue hdone).2 p.key
      (Config.eq_of_mem_placeholdersAt hp).2
  refine ⟨hall, fun hother => List.eq_nil_iff_forall_not_mem.2 fun p hp => ?_⟩
  exact hstrict hother p hp (hall p hp)

/-! ### A placeholder without a value, and one made up of parts -/

lemma asks_resolve {body : List UInt8} {overrides : Override} {text : Text}
    {properties : Table Text (Option Text)} {withEnvironment : Bool}
    (h : (ResolveRequest.read body).toOption.map (fun request =>
        (request.overrides, request.text, request.properties, request.withEnvironment))
      = some (overrides, text, properties, withEnvironment)) :
    (resolveRequest body).Asks (.resolve ⟨overrides, text, properties, withEnvironment⟩) := by
  obtain ⟨request, hread, hparts⟩ := exists_of_toOption_map h
  simp only [Prod.mk.injEq] at hparts
  obtain ⟨rfl, rfl, rfl, rfl⟩ := hparts
  exact ⟨rfl, rfl, hread⟩

/-- The text `${a}-${b}` with a value for `a`. -/
def partlyBody : List UInt8 :=
  bytes "\x7b\"text\": \"$\x7ba\x7d-$\x7bb\x7d\", \"properties\": \x7b\"a\": \"1\"\x7d\x7d".toList

/-- What it asks for. -/
def partlyRequest : ResolveRequest :=
  ⟨.none, Config.braces.enclose ['a'] ++ ('-' :: Config.braces.enclose ['b']),
    ⟨[(['a'], some ['1'])]⟩, false⟩

/-- `${a}-${b}` resolves to `1-${b}`, and `${b}` is listed. -/
theorem missing_is_listed :
    (resolveRequest partlyBody).Asks (.resolve partlyRequest) ∧
    ((start .default).handle .empty (resolveRequest partlyBody)).1.status? = some 200 ∧
    ((start .default).handle .empty (resolveRequest partlyBody)).1.Lists
      [Config.braces.enclose ['b']] ∧
    Config.braces.LeftInPlace ((chainOf partlyRequest).property? .empty)
      (Config.braces.resolve ((chainOf partlyRequest).lookup .empty) partlyRequest.text)
      (Config.braces.enclose ['b']) := by
  have hasks : (resolveRequest partlyBody).Asks (.resolve partlyRequest) :=
    asks_resolve (by decide +kernel)
  have hok : ((start .default).handle .empty (resolveRequest partlyBody)).1.status? = some 200 := by
    decide +kernel
  obtain ⟨c, result, hc, hdone, hlists, hkept, -⟩ :=
    listed_has_no_value (start .default) Config.nestingAllowed .empty hasks hok
  obtain rfl : Config.braces = c := Except.ok.inj hc
  obtain rfl : '1' :: '-' :: Config.braces.enclose ['b'] = result := by
    have hresult : (Config.braces.resolve ((chainOf partlyRequest).lookup .empty)
        partlyRequest.text).outcome = .done ('1' :: '-' :: Config.braces.enclose ['b']) := by
      decide +kernel
    exact Outcome.done.inj (hresult.symm.trans hdone)
  have hp : Config.braces.placeholders ('1' :: '-' :: Config.braces.enclose ['b']) =
      [Config.braces.placeholderAt 2 ['b']] := by decide +kernel
  refine ⟨hasks, hok, ?_, ?_⟩
  · rwa [hp] at hlists
  · refine (hkept (Config.braces.placeholderAt 2 ['b']) (hp ▸ List.mem_singleton_self _)).2 ?_
    decide +kernel

/-- The text `${a}{b}` where the value of `a` is the beginning of an opener. -/
def seamBody : List UInt8 :=
  bytes "\x7b\"text\": \"$\x7ba\x7d\x7bb\x7d\", \"properties\": \x7b\"a\": \"$\"\x7d\x7d".toList

/-- What it asks for. -/
def seamRequest : ResolveRequest :=
  ⟨.none, Config.braces.enclose ['a'] ++ ['{', 'b', '}'], ⟨[(['a'], some ['$'])]⟩, false⟩

/-- `${a}{b}` resolves to `${b}` with no placeholder left in place, and also in a strict run, but
`${b}` is listed. -/
theorem seam_is_listed :
    (resolveRequest seamBody).Asks (.resolve seamRequest) ∧
    (start .default).configFor seamRequest.overrides = .ok Config.braces ∧
    ((start .default).handle .empty (resolveRequest seamBody)).1.Lists
      [Config.braces.enclose ['b']] ∧
    ((Config.braces.withPolicy false).resolve ((chainOf seamRequest).lookup .empty)
      seamRequest.text).outcome = .done (Config.braces.enclose ['b']) ∧
    ¬Config.braces.LeftInPlace ((chainOf seamRequest).property? .empty)
      (Config.braces.resolve ((chainOf seamRequest).lookup .empty) seamRequest.text)
      (Config.braces.enclose ['b']) := by
  have hasks : (resolveRequest seamBody).Asks (.resolve seamRequest) :=
    asks_resolve (by decide +kernel)
  have hstrict : ((Config.braces.withPolicy false).resolve ((chainOf seamRequest).lookup .empty)
      seamRequest.text).outcome = .done (Config.braces.enclose ['b']) := by decide +kernel
  have hdone : (Config.braces.resolve ((chainOf seamRequest).lookup .empty)
      seamRequest.text).outcome = .done (Config.braces.enclose ['b']) := by decide +kernel
  refine ⟨hasks, rfl, ?_, hstrict, fun hleft => ?_⟩
  · rw [handle, handleWithin_of_asks .empty hasks]
    have hp : (Config.braces.placeholders (Config.braces.enclose ['b'])).map Placeholder.whole =
        [Config.braces.enclose ['b']] := by decide +kernel
    rw [← hp]
    exact resolveAnswer_lists hdone
  · exact Config.not_keeps_of_strict_done hstrict (Config.leftInPlace_enclose_iff.1 hleft)

end Server
end ConfigText
