import ConfigText.Proofs.Answers
import ConfigText.Proofs.Bodies
import Mathlib

/-!
Serving one request after the other.

All that a server keeps is the configuration that its settings describe, so it answers each request
as if it had just been started. A request for some syntax gets a configuration of its own, and that
is the same one if it asks for what the settings say anyway.
-/

namespace ConfigText

/-! ### Configurations from the same reads -/

section Plain

variable (opener closer value : Value)

lemma Value.holds_plain : value.plain.holds = value.holds := by
  cases value <;> rfl

lemma Value.text?_plain : value.plain.text? = value.text? := by
  cases value <;> rfl

lemma Field.text_plain : text value.plain = text value := by
  cases value <;> rfl

lemma Config.bracketFault?_plain :
    bracketFault? opener.plain closer.plain = bracketFault? opener closer := by
  have hkey : closer.plain.notKey? = closer.notKey? := by cases closer <;> rfl
  unfold bracketFault?
  rw [hkey, Value.text?_plain]
  generalize closer.notKey? = value?
  generalize closer.text?.bind openingBracket = bracket?
  cases opener <;> cases value? <;> cases bracket? <;> rfl

lemma Config.bracketFor_plain (opener : Text) :
    bracketFor opener closer.plain = bracketFor opener closer := by
  rw [bracketFor, bracketFor, Value.text?_plain]

end Plain

/-- Of the marks counts what they are but for their style, and of the separator and of the policy
what they are read as. -/
lemma Config.ofFields_congr {fields fields' : ConfigFields}
    (hopener : (fields.opener.getD .null).plain = (fields'.opener.getD .null).plain)
    (hcloser : (fields.closer.getD .null).plain = (fields'.closer.getD .null).plain)
    (hdepth : fields.maxDepth = fields'.maxDepth)
    (hseparator : Field.textOrNull (fields.separator.getD .null)
      = Field.textOrNull (fields'.separator.getD .null))
    (hlenient : Field.bool (fields.lenient.getD (.bool true))
      = Field.bool (fields'.lenient.getD (.bool true))) :
    ofFields fields = ofFields fields' := by
  have hfault : fault? fields = fault? fields' := by
    simp only [fault?, hdepth]
    rw [← Value.holds_plain (fields.opener.getD .null), hopener, Value.holds_plain,
      ← Value.holds_plain (fields.closer.getD .null), hcloser, Value.holds_plain,
      ← bracketFault?_plain (fields.opener.getD .null), hopener, hcloser, bracketFault?_plain]
  have hopened :
      Field.text (fields.opener.getD .null) = Field.text (fields'.opener.getD .null) := by
    rw [← Field.text_plain, hopener, Field.text_plain]
  have hclosed :
      Field.text (fields.closer.getD .null) = Field.text (fields'.closer.getD .null) := by
    rw [← Field.text_plain, hcloser, Field.text_plain]
  have hbracket (opener : Text) : bracketFor opener (fields.closer.getD .null)
      = bracketFor opener (fields'.closer.getD .null) := by
    rw [← bracketFor_plain, hcloser, bracketFor_plain]
  simp only [ofFields, hfault, hopened, hclosed, hbracket, hdepth, hseparator, hlenient]

lemma Field.textOrNull_elim (text? : Option Text) :
    Field.textOrNull (text?.elim .null .text) = .ok text? := by
  cases text? <;> rfl

namespace Server

variable {settings : Settings} {server : Server} {c : Config} {o o' : Override} {bound : ℕ}

lemma config_eq_of_agrees (hc : settings.config .none = .ok c) (h : o.Agrees settings c o') :
    settings.config o.toFields = settings.config o'.toFields := by
  obtain ⟨-, -, -, hseparator, hlenient, -⟩ := Config.reads_of_ofFields hc
  have hmark (text? : Option Text) (setting : Setting) :
      ((text?.map Value.text).or (some (settings.get setting))).getD .null
        = text?.elim (settings.get setting) .text := by
    cases text? <;> rfl
  have hsep (o : Override) :
      Field.textOrNull (((o.separator.map (·.elim .null .text)).or
        (some (settings.get .separator))).getD .null) = .ok (o.separator.getD c.separator) := by
    cases o.separator with
    | none => exact hseparator
    | some separator => exact Field.textOrNull_elim separator
  have hpolicy (o : Override) :
      Field.bool (((o.lenient.map .bool).or (some (settings.get .lenient))).getD (.bool true))
        = .ok (o.lenient.getD c.lenient) := by
    cases o.lenient with
    | none => exact hlenient
    | some lenient => rfl
  refine Config.ofFields_congr ?_ ?_ rfl ?_ ?_
  · change (((o.opener.map Value.text).or (some (settings.get .opener))).getD .null).plain
      = (((o'.opener.map Value.text).or (some (settings.get .opener))).getD .null).plain
    rw [hmark, hmark, h.opener]
  · change (((o.closer.map Value.text).or (some (settings.get .closer))).getD .null).plain
      = (((o'.closer.map Value.text).or (some (settings.get .closer))).getD .null).plain
    rw [hmark, hmark, h.closer]
  · exact (hsep o).trans ((congrArg Except.ok h.separator).trans (hsep o').symm)
  · exact (hpolicy o).trans ((congrArg Except.ok h.lenient).trans (hpolicy o').symm)

/-! ### What is kept -/

/-- Under settings that describe a configuration there is no difference between asking for no syntax
and asking for any. -/
lemma withConfig_eq (h : server.Faithful) (hc : server.settings.config .none = .ok c)
    (o : Override) (answer : Config → Answer) :
    (server.withConfig o answer).1 =
      match server.settings.config o.toFields with
      | .ok c => answer c
      | .error fault =>
        if fault.refusesMarks then errorDetail 400 "invalid_config" fault.message []
        else .broken fault := by
  by_cases hnone : o = .none
  · have hfields : server.settings.config o.toFields = .ok c := by rw [hnone]; exact hc
    rw [hfields, hnone]
    exact withConfig_none h hc answer
  · rw [withConfig, if_neg hnone]
    cases server.settings.config o.toFields with
    | ok c => rfl
    | error fault => by_cases hrefuses : fault.refusesMarks = true <;> simp [hrefuses]

lemma withConfig_eq_of_agrees (h : server.Faithful) (hc : server.settings.config .none = .ok c)
    (hagrees : o.Agrees server.settings c o') (answer : Config → Answer) :
    (server.withConfig o' answer).1 = (server.withConfig o answer).1 := by
  rw [withConfig_eq h hc, withConfig_eq h hc, config_eq_of_agrees hc hagrees]

/-- What is kept does not show in an answer. -/
lemma withConfig_eq_start (h : server.Faithful) (o : Override) (answer : Config → Answer) :
    (server.withConfig o answer).1 = ((start server.settings).withConfig o answer).1 := by
  cases hc : server.settings.config .none with
  | ok c => rw [withConfig_eq h hc, withConfig_eq (faithful_start _) hc]; rfl
  | error fault =>
    have hkept : server.kept = none := by
      cases hk : server.kept with
      | none => rfl
      | some kept => cases hc.symm.trans (h kept hk)
    obtain ⟨settings, kept⟩ := server
    obtain rfl : kept = none := hkept
    rfl

/-- A request is answered as by a server that has just been started. -/
lemma handleWithin_eq_start (h : server.Faithful) (env : Environment) (request : Request) :
    (server.handleWithin bound env request).1
      = ((start server.settings).handleWithin bound env request).1 := by
  unfold handleWithin
  split
  · rfl
  · split
    · rfl
    · split
      · rfl
      · split
        · rfl
        · exact withConfig_eq_start h _ _
      · split
        · rfl
        · exact withConfig_eq_start h _ _

/-- The answers to requests one after the other, each in an environment of its own. -/
def answers (bound : ℕ) (server : Server) : List (Environment × Request) → List Answer
  | [] => []
  | (env, request) :: more =>
    (server.handleWithin bound env request).1
      :: answers bound (server.handleWithin bound env request).2 more

lemma answers_eq_map_start (h : server.Faithful) (requests : List (Environment × Request)) :
    server.answers bound requests = requests.map fun (env, request) =>
      ((start server.settings).handleWithin bound env request).1 := by
  induction requests generalizing server with
  | nil => rfl
  | cons pair more ih =>
    obtain ⟨env, request⟩ := pair
    obtain ⟨hfaithful, hsettings⟩ := handleWithin_faithful bound h env request
    rw [answers, List.map_cons, handleWithin_eq_start h, ih hfaithful, hsettings]

/-! ### Requests that spell out what the settings have -/

/-- The second request is the first one with some of the omitted members of its body spelled out as
the settings have them. -/
structure Request.SpellsOut (settings : Settings) (c : Config) (request more : Request) : Prop where
  method : more.method = request.method
  path : more.path = request.path
  body : ∃ members members', Body.members request.body = .ok members ∧
    Body.members more.body = .ok members' ∧ Body.SpellsOut settings c members members'

lemma exists_asks_iff {request : Request} : (∃ accepted, request.Asks accepted) ↔
    (Route.ofPath? request.path = some .parse ∧ request.method = Route.parse.method ∧
      ∃ asked, ParseRequest.read request.body = .ok asked) ∨
    (Route.ofPath? request.path = some .resolve ∧ request.method = Route.resolve.method ∧
      ∃ asked, ResolveRequest.read request.body = .ok asked) := by
  constructor
  · rintro ⟨accepted, hroute, hmethod, hread⟩
    cases accepted with
    | parse asked => exact .inl ⟨hroute, hmethod, asked, hread⟩
    | resolve asked => exact .inr ⟨hroute, hmethod, asked, hread⟩
  · rintro (⟨hroute, hmethod, asked, hread⟩ | ⟨hroute, hmethod, asked, hread⟩)
    · exact ⟨.parse asked, hroute, hmethod, hread⟩
    · exact ⟨.resolve asked, hroute, hmethod, hread⟩

section Requests

variable {request more : Request} (h : request.SpellsOut settings c more)
include h

/-- One of the requests is accepted exactly if the other one is. -/
lemma asks_iff : (∃ accepted, request.Asks accepted) ↔ ∃ accepted, more.Asks accepted := by
  obtain ⟨hmethod, hpath, members, members', hbody, hbody', hspells⟩ := h
  rw [exists_asks_iff, exists_asks_iff, hmethod, hpath,
    (read_parse_alike hbody hbody' hspells).exists_ok_iff,
    (read_resolve_alike hbody hbody' hspells).exists_ok_iff]

/-- Both requests are answered alike, whatever is kept. -/
lemma handleWithin_alike (hfaithful : server.Faithful) (hsettings : server.settings = settings)
    (hc : settings.config .none = .ok c) (env : Environment) :
    (server.handleWithin bound env more).1 = (server.handleWithin bound env request).1 := by
  obtain ⟨hmethod, hpath, members, members', hbody, hbody', hspells⟩ := h
  subst hsettings
  unfold handleWithin
  rw [hpath, hmethod]
  split
  · rfl
  · split
    · rfl
    · split
      · rfl
      · have halike := read_parse_alike hbody hbody' hspells
        generalize ParseRequest.read request.body = r at halike ⊢
        generalize ParseRequest.read more.body = r' at halike ⊢
        cases halike with
        | refused hlist => exact (refused_eq hlist).symm
        | @accepted asked _ hasked =>
          obtain ⟨o', hagrees, rfl⟩ := hasked
          exact withConfig_eq_of_agrees hfaithful hc hagrees _
      · have halike := read_resolve_alike hbody hbody' hspells
        generalize ResolveRequest.read request.body = r at halike ⊢
        generalize ResolveRequest.read more.body = r' at halike ⊢
        cases halike with
        | refused hlist => exact (refused_eq hlist).symm
        | @accepted asked _ hasked =>
          obtain ⟨o', hagrees, rfl⟩ := hasked
          exact withConfig_eq_of_agrees hfaithful hc hagrees _

end Requests

/-- **What is kept never shows.** Requests one after the other are answered as if the server had
just been started for each of them, in the environment of that moment. Under settings that describe
a configuration, a request whose body spells out some of what they say anyway is accepted exactly if
one that omits it is, and it gets the same answer. If it is refused then with the same complaints.
What they are about may be the one body or the other, and answers leave this out here. -/
theorem kept_never_shows (settings : Settings) (c : Config) (hc : settings.config .none = .ok c)
    (bound : ℕ) (requests : List (Environment × Request)) :
    (start settings).answers bound requests = requests.map (fun (env, request) =>
      ((start settings).handleWithin bound env request).1) ∧
    ∀ (env : Environment) (request more : Request), request.SpellsOut settings c more →
      ((∃ accepted, request.Asks accepted) ↔ ∃ accepted, more.Asks accepted) ∧
      ((after bound settings requests).handleWithin bound env more).1
        = ((after bound settings requests).handleWithin bound env request).1 := by
  obtain ⟨hfaithful, hsettings⟩ := after_faithful bound settings requests
  exact ⟨answers_eq_map_start (faithful_start settings) requests, fun env request more h =>
    ⟨asks_iff h, handleWithin_alike h hfaithful hsettings hc env⟩⟩

/-- The text `x`, and the opener and the separator that there are by default. -/
def spelledBody : List UInt8 :=
  bytes "\x7b\"text\": \"x\", \"prefix\": \"$\x7b\", \"separator\": \":\"\x7d".toList

lemma plain_spellsOut :
    (parseRequest plainBody).SpellsOut .default Config.braces (parseRequest spelledBody) where
  method := rfl
  path := rfl
  body := by
    refine ⟨[("text".toList, .text ['x'])], [("text".toList, .text ['x']),
      ("prefix".toList, .text ['$', '{']), ("separator".toList, .text [':'])], by cbv, by cbv, ?_⟩
    intro name
    by_cases hprefix : name = "prefix".toList
    · subst hprefix
      exact .inr ⟨.text ['$', '{'], .inl ⟨rfl, rfl⟩, .inl rfl, rfl⟩
    by_cases hseparator : name = "separator".toList
    · subst hseparator
      exact .inr ⟨.text [':'], .inr (.inr (.inl ⟨rfl, rfl⟩)), .inl rfl, rfl⟩
    · left
      have hpre : (name == "prefix".toList) = false := by simpa using hprefix
      have hsep : (name == "separator".toList) = false := by simpa using hseparator
      simp only [List.lookup_cons, hpre, hsep, List.lookup_nil]

/-- A server by default that has answered a request for no separator. It answers alike whether the
separator by default is spelled out or omitted. -/
theorem spelled_is_answered_alike :
    Settings.default.config .none = .ok Config.braces ∧
    (parseRequest plainBody).SpellsOut .default Config.braces (parseRequest spelledBody) ∧
    (∃ accepted, (parseRequest plainBody).Asks accepted) ∧
    ((after Config.nestingAllowed .default [(.empty, parseRequest unseparatedBody)]).handle .empty
        (parseRequest spelledBody)).1 =
      ((after Config.nestingAllowed .default [(.empty, parseRequest unseparatedBody)]).handle .empty
        (parseRequest plainBody)).1 := by
  have hasks : ∃ accepted, (parseRequest plainBody).Asks accepted :=
    ⟨.parse ⟨.none, ['x']⟩, asks_parse (by decide +kernel)⟩
  refine ⟨default_config, plain_spellsOut, hasks, ?_⟩
  exact ((kept_never_shows .default Config.braces default_config Config.nestingAllowed
    [(.empty, parseRequest unseparatedBody)]).2 .empty _ _ plain_spellsOut).2

end Server
end ConfigText
