import ConfigText.Proofs.Surfaces
import Mathlib

/-!
What the server tells of errors about placeholders.

Such an error comes up in one of three places: in the syntax that a request asks for, in the one of
the settings, or while a text is resolved. What goes wrong in the first and the last place is told
to the caller, by a status for its kind and with what it is about. Marks or a limit of the settings
that are refused are told as well if the request asks for some syntax. If it asks for none, they
leave the server without an answer.
-/

namespace ConfigText

/-- An error about placeholders. -/
inductive PlaceholderError
  /-- Marks or a limit are refused. -/
  | config (fault : ConfigFault) (refuses : fault.refusesMarks = true)
  /-- A text cannot be resolved. -/
  | resolving (failure : Failure)

namespace PlaceholderError

/-- The status that stands for the error. -/
def status : PlaceholderError → ℕ
  | config .. => 400
  | resolving (.circular _) => 409
  | resolving (.unresolvable ..) | resolving (.tooDeep ..) => 422

def kind : PlaceholderError → String
  | config .. => "invalid_config"
  | resolving (.circular _) => "circular_reference"
  | resolving (.unresolvable ..) => "unresolvable_placeholder"
  | resolving (.tooDeep ..) => "max_depth_exceeded"

def message : PlaceholderError → Text
  | config fault _ => fault.message
  | resolving failure => failure.message

/-- The key or the limit that the error is about, by its name. -/
def subject? : PlaceholderError → Option (String × Json)
  | config .. => none
  | resolving (.circular key) | resolving (.unresolvable key _) => some ("key", .text key)
  | resolving (.tooDeep limit _) => some ("max_depth", .int limit)

end PlaceholderError

namespace Server

/-! ### What is told -/

/-- A member of the detail of an answer. -/
def Answer.detail? (answer : Answer) (name : String) : Option Json :=
  match answer with
  | .json _ body => (body.member? "detail").bind (·.member? name)
  | _ => none

/-- An answer tells of an error. -/
structure Answer.Tells (answer : Answer) (error : PlaceholderError) : Prop where
  status : answer.status? = some error.status
  kind : answer.detail? "error" = some (.text error.kind.toList)
  message : answer.detail? "message" = some (.text error.message)
  subject : ∀ name value, error.subject? = some (name, value) → answer.detail? name = some value

lemma tells_errorDetail (error : PlaceholderError) :
    (errorDetail error.status error.kind error.message error.subject?.toList).Tells error where
  status := rfl
  kind := rfl
  message := rfl
  subject name value h := by
    cases error with
    | config fault refuses => cases h
    | resolving failure => cases failure <;> cases h <;> rfl

lemma tells_failed (failure : Failure) : (failed failure).Tells (.resolving failure) := by
  have htells := tells_errorDetail (.resolving failure)
  cases failure <;> exact htells

lemma not_tells_broken (fault : ConfigFault) (error : PlaceholderError) :
    ¬(Answer.broken fault).Tells error := fun h => nomatch h.status

/-! ### What goes wrong -/

/-- What a request with an accepted body asks for. -/
inductive Accepted
  | parse (request : ParseRequest)
  | resolve (request : ResolveRequest)

namespace Accepted

def route : Accepted → Route
  | parse _ => .parse
  | resolve _ => .resolve

def overrides : Accepted → Override
  | parse request => request.overrides
  | resolve request => request.overrides

/-- The body is read as this. -/
def IsRead (body : List UInt8) : Accepted → Prop
  | parse request => ParseRequest.read body = .ok request
  | resolve request => ResolveRequest.read body = .ok request

/-- The answer with a configuration. -/
def answer (bound : ℕ) (env : Environment) (c : Config) : Accepted → Answer
  | parse request => parseAnswer c request.text
  | resolve request => resolveAnswer bound c env request

end Accepted

/-- The request asks for this. -/
structure Request.Asks (request : Request) (accepted : Accepted) : Prop where
  route : Route.ofPath? request.path = some accepted.route
  method : request.method = accepted.route.method
  body : accepted.IsRead request.body

variable {server : Server} {overrides : Override} {c : Config} {fault : ConfigFault} {bound : ℕ}

/-- The configuration for a request: the kept one if no syntax is asked for. -/
def configFor (server : Server) (overrides : Override) : Except ConfigFault Config :=
  if overrides = .none then server.kept.elim (server.settings.config .none) .ok
  else server.settings.config overrides.toFields

/-- Serving goes wrong with this error, where a run may nest as deep as the bound says. -/
inductive Raises (server : Server) (bound : ℕ) (env : Environment) :
    Accepted → PlaceholderError → Prop
  | config {accepted : Accepted} {fault : ConfigFault} {refuses : fault.refusesMarks = true}
    (h : server.configFor accepted.overrides = .error fault) :
    Raises server bound env accepted (.config fault refuses)
  | resolving {request : ResolveRequest} {c : Config} {failure : Failure}
    (hc : server.configFor request.overrides = .ok c)
    (h : (c.resolveWithin ((chainOf request).lookup env) bound request.text).outcome =
      .failed failure) :
    Raises server bound env (.resolve request) (.resolving failure)

lemma withConfig_of_ok (h : server.configFor overrides = .ok c) (answer : Config → Answer) :
    (server.withConfig overrides answer).1 = answer c := by
  unfold configFor at h
  unfold withConfig
  split at h
  · next hnone =>
    rw [if_pos hnone]
    cases hkept : server.kept with
    | none =>
      have hc : server.settings.config .none = .ok c := by simpa [hkept] using h
      simp only [hc]
    | some kept =>
      obtain rfl : kept = c := by simpa [hkept] using h
      rfl
  · next hnone => simp only [if_neg hnone, h]

lemma configFor_none_eq_error :
    server.configFor .none = .error fault ↔
      server.kept = none ∧ server.settings.config .none = .error fault := by
  rw [configFor, if_pos rfl]
  cases server.kept <;> simp

/-- A request for no syntax is not told of a fault. -/
lemma withConfig_none_of_error (h : server.configFor .none = .error fault)
    (answer : Config → Answer) : (server.withConfig .none answer).1 = .broken fault := by
  obtain ⟨hkept, hfault⟩ := configFor_none_eq_error.1 h
  rw [withConfig, if_pos rfl, hkept]
  simp only [hfault]

/-- A request for some syntax is, if marks or a limit are refused. -/
lemma withConfig_of_error (hsome : overrides ≠ .none)
    (h : server.configFor overrides = .error fault) (answer : Config → Answer) :
    (server.withConfig overrides answer).1 =
      if fault.refusesMarks then errorDetail 400 "invalid_config" fault.message []
      else .broken fault := by
  rw [configFor, if_neg hsome] at h
  rw [withConfig, if_neg hsome]
  simp only [h]
  split <;> rfl

lemma handleWithin_of_asks (env : Environment) {request : Request} {accepted : Accepted}
    (h : request.Asks accepted) :
    server.handleWithin bound env request =
      server.withConfig accepted.overrides fun c => accepted.answer bound env c := by
  obtain ⟨hroute, hmethod, hbody⟩ := h
  have hsame : (request.method != accepted.route.method) = false := by simp [hmethod]
  simp only [handleWithin, hroute, hsame, Bool.false_eq_true, if_false]
  cases accepted with
  | parse parse =>
    have hread : ParseRequest.read request.body = .ok parse := hbody
    simp only [Accepted.route, hread]
    rfl
  | resolve resolve =>
    have hread : ResolveRequest.read request.body = .ok resolve := hbody
    simp only [Accepted.route, hread]
    rfl

/-! ### What is told of it -/

/-- An error is told unless it is one of the settings and no syntax is asked for. -/
lemma tells_of_raises (env : Environment) {request : Request} {accepted : Accepted}
    (hasks : request.Asks accepted) {error : PlaceholderError}
    (hraises : server.Raises bound env accepted error)
    (hnot : ¬(accepted.overrides = .none ∧ ∃ fault refuses, error = .config fault refuses)) :
    (server.handleWithin bound env request).1.Tells error := by
  rw [handleWithin_of_asks env hasks]
  cases hraises with
  | @config _ fault refuses h =>
    have hsome : accepted.overrides ≠ .none := fun hnone => hnot ⟨hnone, fault, refuses, rfl⟩
    rw [withConfig_of_error hsome h, if_pos refuses]
    exact tells_errorDetail (.config fault refuses)
  | @resolving request c failure hc h =>
    have hanswer : resolveAnswer bound c env request = failed failure := by rw [resolveAnswer, h]
    rw [Accepted.overrides, withConfig_of_ok hc, Accepted.answer, hanswer]
    exact tells_failed failure

/-- With a configuration there is an answer, or resolving is cut off. -/
lemma answer_ne_broken (c : Config) (env : Environment) (accepted : Accepted)
    (fault : ConfigFault) : accepted.answer bound env c ≠ .broken fault := by
  cases accepted with
  | parse request => exact nofun
  | resolve request =>
    change resolveAnswer bound c env request ≠ .broken fault
    unfold resolveAnswer
    split
    · exact nofun
    · next failure _ => cases failure <;> exact nofun
    · exact nofun

/-- What leaves the server of refused marks or limits is what the settings have of them, where
nothing is kept and no syntax is asked for. -/
lemma handleWithin_eq_broken_iff (env : Environment) {request : Request} {accepted : Accepted}
    (hasks : request.Asks accepted) (refuses : fault.refusesMarks = true) :
    (server.handleWithin bound env request).1 = .broken fault ↔
      accepted.overrides = .none ∧ server.kept = none ∧
        server.settings.config .none = .error fault := by
  rw [handleWithin_of_asks env hasks, ← configFor_none_eq_error]
  constructor
  · intro hbroken
    cases h : server.configFor accepted.overrides with
    | ok c =>
      rw [withConfig_of_ok h] at hbroken
      exact absurd hbroken (answer_ne_broken c env accepted fault)
    | error other =>
      by_cases hnone : accepted.overrides = .none
      · rw [hnone] at h hbroken
        rw [withConfig_none_of_error h] at hbroken
        cases hbroken
        exact ⟨hnone, h⟩
      · rw [withConfig_of_error hnone h] at hbroken
        split at hbroken
        · cases hbroken
        · next hother =>
          cases hbroken
          exact absurd refuses hother
  · rintro ⟨hnone, h⟩
    rw [hnone, withConfig_none_of_error h]

/-- **Errors about placeholders are told, save for those of the settings.** Let a request have an
accepted body. What goes wrong when it is served is told to the caller: refused marks or limits by
the status 400, a circular key by 409, a key without a value and too deep nesting by 422, with the
key or the limit. Only if those of the settings are refused and the request asks for no syntax, this
is not told. It leaves the server then, and nothing else about placeholders does. So all is told
under settings that describe a configuration. -/
theorem raised_is_told_unless_settings (server : Server) (bound : ℕ) (env : Environment)
    {request : Request} {accepted : Accepted} (hasks : request.Asks accepted) :
    let answer := (server.handleWithin bound env request).1
    (∀ error, server.Raises bound env accepted error →
      (answer.Tells error ↔
        ¬(accepted.overrides = .none ∧ ∃ fault refuses, error = .config fault refuses))) ∧
    (∀ fault, fault.refusesMarks = true →
      (answer = .broken fault ↔ accepted.overrides = .none ∧ server.kept = none ∧
        server.settings.config .none = .error fault)) ∧
    (∀ c, server.settings.config .none = .ok c →
      ∀ error, server.Raises bound env accepted error → answer.Tells error) := by
  intro answer
  have hsettings {fault : ConfigFault} {refuses : fault.refusesMarks = true}
      (hraises : server.Raises bound env accepted (.config fault refuses))
      (hnone : accepted.overrides = .none) :
      server.kept = none ∧ server.settings.config .none = .error fault := by
    cases hraises with
    | config h => rwa [hnone, configFor_none_eq_error] at h
  refine ⟨fun error hraises => ⟨?_, tells_of_raises env hasks hraises⟩,
    fun fault => handleWithin_eq_broken_iff env hasks, fun c hc error hraises => ?_⟩
  · rintro htells ⟨hnone, fault, refuses, rfl⟩
    have hbroken : answer = .broken fault :=
      (handleWithin_eq_broken_iff env hasks refuses).2 ⟨hnone, hsettings hraises hnone⟩
    exact not_tells_broken fault _ (hbroken ▸ htells)
  · refine tells_of_raises env hasks hraises ?_
    rintro ⟨hnone, fault, refuses, rfl⟩
    cases hc.symm.trans (hsettings hraises hnone).2

/-! ### Settings with an empty opener -/

/-- The settings where the opener is empty. -/
def openerless : Settings := Settings.default.change .opener (.text [])

/-- A variable for the opener that is set to nothing makes these settings. -/
lemma ofEnvironment_openerless :
    Settings.ofEnvironment ⟨[("PLACEHOLDER_PREFIX".toList, [])]⟩ = .ok openerless := by
  refine congrArg Except.ok (congrArg Settings.mk (funext fun setting => ?_))
  cases setting <;> rfl

/-- A request for placeholders. -/
def parseRequest (body : List UInt8) : Request :=
  ⟨"POST".toList, "/api/placeholders/parse".toList, body⟩

/-- A body is accepted if its parts are read. -/
lemma asks_parse {body : List UInt8} {overrides : Override} {text : Text}
    (h : (ParseRequest.read body).toOption.map (fun request => (request.overrides, request.text))
      = some (overrides, text)) :
    (parseRequest body).Asks (.parse ⟨overrides, text⟩) := by
  obtain ⟨request, hread, hparts⟩ := exists_of_toOption_map h
  obtain ⟨rfl, rfl⟩ := Prod.mk.inj hparts
  exact ⟨rfl, rfl, hread⟩

/-- The text `x`, and no separator. -/
def unseparatedBody : List UInt8 :=
  bytes "\x7b\"text\": \"x\", \"separator\": null\x7d".toList

/-- A request for some syntax is told of the empty opener in the settings. -/
theorem unseparated_is_told :
    (parseRequest unseparatedBody).Asks (.parse ⟨⟨none, none, some none, none⟩, ['x']⟩) ∧
    (start openerless).Raises Config.nestingAllowed .empty
      (.parse ⟨⟨none, none, some none, none⟩, ['x']⟩) (.config .emptyOpener rfl) ∧
    ((start openerless).handle .empty (parseRequest unseparatedBody)).1.Tells
      (.config .emptyOpener rfl) := by
  have hasks : (parseRequest unseparatedBody).Asks
      (.parse ⟨⟨none, none, some none, none⟩, ['x']⟩) := asks_parse (by decide +kernel)
  have hraises : (start openerless).Raises Config.nestingAllowed .empty
      (.parse ⟨⟨none, none, some none, none⟩, ['x']⟩) (.config .emptyOpener rfl) := .config rfl
  refine ⟨hasks, hraises, ?_⟩
  exact ((raised_is_told_unless_settings (start openerless) Config.nestingAllowed .empty hasks).1 _
    hraises).2 fun h => nomatch h.1

/-- The text `x`, and no syntax. -/
def plainBody : List UInt8 := bytes "\x7b\"text\": \"x\"\x7d".toList

/-- A request for no syntax is not told of it. -/
theorem plain_is_not_told :
    ∃ settings accepted error,
      Settings.ofEnvironment ⟨[("PLACEHOLDER_PREFIX".toList, [])]⟩ = .ok settings ∧
      (parseRequest plainBody).Asks accepted ∧
      (start settings).Raises Config.nestingAllowed .empty accepted error ∧
      ¬((start settings).handle .empty (parseRequest plainBody)).1.Tells error := by
  have hasks : (parseRequest plainBody).Asks (.parse ⟨.none, ['x']⟩) :=
    asks_parse (by decide +kernel)
  refine ⟨openerless, _, .config .emptyOpener rfl, ofEnvironment_openerless, hasks, .config rfl, ?_⟩
  have hbroken : ((start openerless).handle .empty (parseRequest plainBody)).1
      = .broken .emptyOpener := (handleWithin_eq_broken_iff .empty hasks rfl).2 ⟨rfl, rfl, rfl⟩
  rw [hbroken]
  exact not_tells_broken .emptyOpener _

end Server
end ConfigText
