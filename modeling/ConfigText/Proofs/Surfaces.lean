import ConfigText.Proofs.Arguments
import ConfigText.Proofs.Precedence
import ConfigText.Proofs.Stopping
import ConfigText.Server
import Mathlib

/-!
The program and the server on one text with the same settings.

Both ask the same properties and then the environment, with the same marks and the same limit. The
policy for keys without a value the server takes from the settings, while the program has a switch
for it and is lenient without. So under strict settings the program may go on where the server
answers that a key has no value, and this is all in which they differ.
-/

namespace ConfigText

open CommandLine Server

/-! ### Configurations -/

lemma Config.ofFields_lenient {fields : ConfigFields} {c : Config} (h : ofFields fields = .ok c)
    (lenient : Bool) :
    ofFields { fields with lenient := some (.bool lenient) } = .ok (c.withPolicy lenient) := by
  have hfault : fault? { fields with lenient := some (.bool lenient) } = fault? fields := rfl
  have hpolicy : Field.named "ignore_unresolvable".toList (Field.bool (.bool lenient))
      = .ok lenient := rfl
  unfold ofFields at h ⊢
  rw [hfault]
  cases hf : fault? fields with
  | some fault => simp [hf] at h
  | none =>
    simp only [hf, Option.getD_some, hpolicy] at h ⊢
    split at h
    · next ho hc hs hl hd =>
      simp only [ho, hc, hs, hd]
      split at h
      · cases h
      · split at h
        · cases h
        · cases h
          simp [*, withPolicy]
    · cases h

variable {settings : Settings} {c : Config} {text : Text} {given : List (Text × Text)}
  {withEnvironment : Bool} {env : Environment} {server : Server} {bound : ℕ}

lemma Settings.config_ofSettings (h : settings.config .none = .ok c) :
    settings.config (ResolveCommand.ofSettings settings text given withEnvironment).toFields
      = .ok (c.withPolicy true) :=
  Config.ofFields_lenient h true

/-! ### What the program shows -/

/-- The code with which a program ends by itself. -/
def CommandLine.Report.exitCode? (report : Report) : Option ℕ :=
  match report.ending with
  | .exit code => some code
  | _ => none

/-- A report shows how a run ends. -/
def CommandLine.Report.Shows (report : Report) : Outcome Text → Prop
  | .done result => report.exitCode? = some 0 ∧ report.output = .text (endLine result)
  | .failed _ => report.exitCode? = some 1 ∧ report.output = .text []
  | .exhausted => report.exitCode? = none

lemma runResolve_shows {world : World} {command : ResolveCommand} {chain : Chain}
    (hc : world.settings.config command.toFields = .ok c)
    (hchain : (command.chain world.files).2 = .ok chain) :
    (runResolve bound world command).Shows
      (c.resolveWithin (chain.lookup world.env) bound
        (command.text.getD world.input)).outcome := by
  cases hcommand : command.chain world.files with
  | mk log result =>
    obtain rfl : result = .ok chain := by rwa [hcommand] at hchain
    simp only [runResolve, hc, hcommand]
    cases (c.resolveWithin (chain.lookup world.env) bound
      (command.text.getD world.input)).outcome with
    | done result => exact ⟨rfl, rfl⟩
    | failed failure => exact ⟨rfl, rfl⟩
    | exhausted => rfl

/-! ### What the server answers -/

namespace Server

def Answer.status? : Answer → Option ℕ
  | .json status _ => some status
  | _ => none

/-- The text that a successful answer says is resolved. -/
def Answer.resolved? : Answer → Option Text
  | .json 200 body =>
    match body.member? "resolved" with
    | some (.text result) => some result
    | _ => none
  | _ => none

/-- An answer shows how a run ends. -/
def Answer.Shows (answer : Answer) : Outcome Text → Prop
  | .done result => answer.status? = some 200 ∧ answer.resolved? = some result
  | .failed failure => answer = failed failure
  | .exhausted => answer.status? = none ∧ answer.resolved? = none

lemma resolveAnswer_shows (bound : ℕ) (c : Config) (env : Environment)
    (request : ResolveRequest) :
    (resolveAnswer bound c env request).Shows
      (c.resolveWithin ((chainOf request).lookup env) bound request.text).outcome := by
  unfold resolveAnswer
  cases (c.resolveWithin ((chainOf request).lookup env) bound request.text).outcome with
  | done result => exact ⟨rfl, rfl⟩
  | failed failure => rfl
  | exhausted => exact ⟨rfl, rfl⟩

lemma status?_failed (failure : Failure) :
    ((failed failure).status? = some 409 ∨ (failed failure).status? = some 422) ∧
      (failed failure).resolved? = none := by
  cases failure with
  | circular key => exact ⟨.inl rfl, rfl⟩
  | unresolvable key inside => exact ⟨.inr rfl, rfl⟩
  | tooDeep limit inside => exact ⟨.inr rfl, rfl⟩

/-- What the server keeps was made from its settings. -/
def Faithful (server : Server) : Prop := ∀ c ∈ server.kept, server.settings.config .none = .ok c

lemma faithful_start (settings : Settings) : (start settings).Faithful := nofun

lemma withConfig_faithful (h : server.Faithful) (overrides : Override) (answer : Config → Answer) :
    (server.withConfig overrides answer).2.Faithful ∧
      (server.withConfig overrides answer).2.settings = server.settings := by
  unfold withConfig
  split
  · split
    · exact ⟨h, rfl⟩
    · split
      · next hc => exact ⟨fun _ hk => Option.some.inj hk ▸ hc, rfl⟩
      · exact ⟨h, rfl⟩
  · split
    · exact ⟨h, rfl⟩
    · split <;> exact ⟨h, rfl⟩

/-- A request leaves the settings alone, and what is kept is made from them. -/
lemma handleWithin_faithful (bound : ℕ) (h : server.Faithful) (env : Environment)
    (request : Request) :
    (server.handleWithin bound env request).2.Faithful ∧
      (server.handleWithin bound env request).2.settings = server.settings := by
  unfold handleWithin
  split
  · exact ⟨h, rfl⟩
  · split
    · exact ⟨h, rfl⟩
    · split
      · exact ⟨h, rfl⟩
      · split
        · exact ⟨h, rfl⟩
        · exact withConfig_faithful h _ _
      · split
        · exact ⟨h, rfl⟩
        · exact withConfig_faithful h _ _

/-- The server after some requests, each in an environment of its own. -/
def after (bound : ℕ) (settings : Settings) (requests : List (Environment × Request)) : Server :=
  requests.foldl (fun server (env, request) => (server.handleWithin bound env request).2)
    (start settings)

lemma after_faithful (bound : ℕ) (settings : Settings)
    (requests : List (Environment × Request)) :
    (after bound settings requests).Faithful ∧
      (after bound settings requests).settings = settings := by
  induction requests using List.reverseRecOn with
  | nil => exact ⟨faithful_start settings, rfl⟩
  | append_singleton requests request ih =>
    have hstep := handleWithin_faithful bound ih.1 request.1 request.2
    rw [after, List.foldl_append]
    exact ⟨hstep.1, hstep.2.trans ih.2⟩

/-- A request without a syntax of its own is answered with what the settings describe. -/
lemma withConfig_none (h : server.Faithful) (hc : server.settings.config .none = .ok c)
    (answer : Config → Answer) : (server.withConfig .none answer).1 = answer c := by
  rw [withConfig, if_pos rfl]
  cases hk : server.kept with
  | none => simp only [hc]
  | some kept =>
    obtain rfl : c = kept := Except.ok.inj (hc.symm.trans (h kept hk))
    rfl

/-- A request is for the text with these properties, and for no syntax of its own. -/
structure IsFor (request : ResolveRequest) (text : Text) (given : List (Text × Text))
    (withEnvironment : Bool) : Prop where
  overrides : request.overrides = .none
  text : request.text = text
  properties : request.properties.entries.Perm (given.map fun (key, value) => (key, some value))
  environment : request.withEnvironment = withEnvironment

/-- A request to resolve. -/
def resolveRequest (body : List UInt8) : Request :=
  ⟨"POST".toList, "/api/placeholders/resolve".toList, body⟩

lemma handleWithin_resolve (h : server.Faithful) (hc : server.settings.config .none = .ok c)
    {body : List UInt8} {request : ResolveRequest} (hread : ResolveRequest.read body = .ok request)
    (hnone : request.overrides = .none) :
    (server.handleWithin bound env (resolveRequest body)).1 =
      resolveAnswer bound c env request := by
  have hroute : Route.ofPath? (resolveRequest body).path = some .resolve := rfl
  have hmethod : ((resolveRequest body).method != Route.resolve.method) = false := rfl
  have hbody : ResolveRequest.read (resolveRequest body).body = .ok request := hread
  simp only [handleWithin, hroute, hmethod, hbody, hnone, Bool.false_eq_true, if_false]
  exact withConfig_none h hc _

lemma property?_chainOf (env : Environment) (request : ResolveRequest) (name : Text) :
    (chainOf request).property? env name
      = (request.properties.entries.lookup name).join.or
          (if request.withEnvironment then env.find? name else none) := by
  have hown : (Chain.empty.addLast ⟨"request".toList, .table ⟨request.properties.entries.map
      (keyed fun value => value.elim .null .text)⟩, by decide⟩).property? env name
        = (request.properties.entries.lookup name).join := by
    rw [Chain.property?_addLast _ List.not_mem_nil, Source.get?_table, Properties.shown?_keyed]
    simp only [shown_elim]
    cases request.properties.entries.lookup name <;> rfl
  unfold chainOf
  split
  · have hnew : Source.environmentName ∉ ["request".toList] := by decide
    rw [Chain.property?_addLast _ hnew, Source.get?_process]
    exact congrArg (Option.or · _) hown
  · rw [Option.or_none]
    exact hown

end Server

/-- Program and server ask for the same values. -/
lemma lookup_eq (settings : Settings) (files : Files) {request : ResolveRequest}
    (hgiven : (given.map Prod.fst).Nodup) (hrequest : IsFor request text given withEnvironment) :
    ∃ chain,
      ((ResolveCommand.ofSettings settings text given withEnvironment).chain files).2 = .ok chain ∧
        ∀ env, chain.lookup env = (chainOf request).lookup env := by
  obtain ⟨chain, hchain, hproperty⟩ := @exists_chain files (fun _ => ⟨.empty, []⟩) given []
    (.ofSettings settings text given withEnvironment) rfl rfl nofun
  refine ⟨chain, hchain, fun env => congrArg Lookup.ofFunction (funext fun name => ?_)⟩
  have hkeys : ((given.map fun (key, value) => (key, some value)).map Prod.fst).Nodup := by
    rwa [List.map_map]
  have hlookup : request.properties.entries.lookup name = (given.reverse.lookup name).map some := by
    have hid (other : Text) : (id name == id other) = (name == other) := rfl
    rw [← lookup_perm hkeys hrequest.properties.symm,
      ← lookup_perm hgiven given.reverse_perm.symm]
    exact lookup_map hid some given
  have hjoin : (request.properties.entries.lookup name).join = given.reverse.lookup name := by
    rw [hlookup]
    cases given.reverse.lookup name <;> rfl
  rw [hproperty, property?_chainOf, hjoin, hrequest.environment, foremost]
  change ((given.reverse.lookup name).or none).or _ = _
  rw [Option.or_none]
  cases withEnvironment <;> rfl

/-! ### Where they agree -/

/-- The program succeeds with a text exactly if the answer has this text as resolved, and it fails
without output exactly if the answer is that resolving failed. -/
def Agree (report : Report) (answer : Answer) : Prop :=
  (∀ output, (report.exitCode? = some 0 ∧ report.output = .text output) ↔
    ∃ result, answer.resolved? = some result ∧ output = endLine result) ∧
  ((report.exitCode? = some 1 ∧ report.output = .text []) ↔
    answer.status? = some 409 ∨ answer.status? = some 422)

lemma agree_of_shows {report : Report} {answer : Answer} {outcome : Outcome Text}
    (hreport : report.Shows outcome) (hanswer : answer.Shows outcome) : Agree report answer := by
  cases outcome with
  | done result =>
    obtain ⟨hcode, houtput⟩ := hreport
    obtain ⟨hstatus, hresolved⟩ := hanswer
    constructor
    · intro output
      simp [hcode, houtput, hresolved, eq_comm]
    · simp [hcode, hstatus]
  | failed failure =>
    obtain ⟨hcode, houtput⟩ := hreport
    obtain rfl : answer = failed failure := hanswer
    obtain ⟨hstatus, hresolved⟩ := status?_failed failure
    constructor
    · intro output
      simp [hcode, hresolved]
    · exact ⟨fun _ => hstatus, fun _ => ⟨hcode, houtput⟩⟩
  | exhausted =>
    have hcode : report.exitCode? = none := hreport
    obtain ⟨hstatus, hresolved⟩ := hanswer
    constructor
    · intro output
      simp [hcode, hresolved]
    · simp [hcode, hstatus]

/-- A run is the lenient one, or it fails since a key has no value. -/
lemma Config.resolveWithin_eq_or_missing (c : Config) (lookup : Lookup) (bound : ℕ) (text : Text) :
    c.resolveWithin lookup bound text = (c.withPolicy true).resolveWithin lookup bound text ∨
      c.lenient = false ∧ ∃ key inside,
        (c.resolveWithin lookup bound text).outcome = .failed (.unresolvable key inside) := by
  have hself : c.withPolicy c.lenient = c := rfl
  cases hpolicy : c.lenient with
  | true =>
    rw [hpolicy] at hself
    exact .inl (by rw [hself])
  | false =>
    rw [hpolicy] at hself
    have hstops := resolveWithin_withPolicy_stopsAt c lookup bound text
    rw [hself] at hstops
    rcases hstops with heq | ⟨⟨_, hfail, key, inside, rfl⟩, -⟩
    · exact .inl heq
    · exact .inr ⟨rfl, key, inside, hfail⟩

/-- A program with exit code one shows a failure. -/
lemma shows_failed {report : Report} {outcome : Outcome Text} (h : report.Shows outcome)
    (hcode : report.exitCode? = some 1) (failure : Failure) : report.Shows (.failed failure) := by
  cases outcome with
  | done result => cases hcode.symm.trans h.1
  | failed other => exact h
  | exhausted => cases hcode.symm.trans h

lemma answer_shows {requests : List (Environment × Request)} {body : List UInt8}
    {request : ResolveRequest} (hc : settings.config .none = .ok c)
    (hread : ResolveRequest.read body = .ok request)
    (hrequest : IsFor request text given withEnvironment) :
    ((after bound settings requests).handleWithin bound env (resolveRequest body)).1.Shows
      (c.resolveWithin ((chainOf request).lookup env) bound text).outcome := by
  obtain ⟨hfaithful, hsettings⟩ := after_faithful bound settings requests
  rw [handleWithin_resolve hfaithful (hsettings.symm ▸ hc) hread hrequest.overrides,
    ← hrequest.text]
  exact resolveAnswer_shows bound c env request

/-- **The program and the server resolve alike where the policy is alike.** Let settings describe a
configuration, and let program and server resolve one text in one environment with the same
properties, the program with no other switch and the server, whatever it was asked before, with no
other syntax, where both cut off what nests deeper than some bound. The program agrees with a server
that is lenient and has the same settings otherwise, so with this one if it is lenient. It agrees
with a strict one unless this one answers that a key has no value and the program does not fail. -/
theorem agree_unless_missing (settings : Settings) (c : Config)
    (hc : settings.config .none = .ok c) (bound : ℕ) (requests : List (Environment × Request))
    (env : Environment) (files : Files) (input text : Text) (given : List (Text × Text))
    (hgiven : (given.map Prod.fst).Nodup) (withEnvironment : Bool) (body : List UInt8)
    (request : ResolveRequest) (hread : ResolveRequest.read body = .ok request)
    (hrequest : IsFor request text given withEnvironment) :
    let command := ResolveCommand.ofSettings settings text given withEnvironment
    let report := runResolve bound ⟨settings, env, files, input⟩ command
    let answer (settings : Settings) : Answer :=
      ((after bound settings requests).handleWithin bound env (resolveRequest body)).1
    ((∀ pair ∈ given, pair.1 ≠ [] ∧ '=' ∉ pair.1) →
      readResolve settings (arguments text given withEnvironment) = .ok (command, [])) ∧
    Agree report (answer (settings.change .lenient (.bool true))) ∧
    (c.lenient = true → Agree report (answer settings)) ∧
    (Agree report (answer settings) ↔
      ∀ key inside, answer settings = failed (.unresolvable key inside) →
        report.exitCode? = some 1) := by
  intro command report answer
  obtain ⟨chain, hchain, hlookup⟩ := lookup_eq settings files hgiven hrequest
  have hreport : report.Shows
      ((c.withPolicy true).resolveWithin ((chainOf request).lookup env) bound text).outcome := by
    rw [← hlookup env]
    exact runResolve_shows (Settings.config_ofSettings hc) hchain
  have hanswer : (answer settings).Shows
      (c.resolveWithin ((chainOf request).lookup env) bound text).outcome :=
    answer_shows hc hread hrequest
  have hsame := c.resolveWithin_eq_or_missing ((chainOf request).lookup env) bound text
  have hdepth : (settings.get .maxDepth).text? = none :=
    Config.text?_of_depthFault?
      (Config.fault?_eq_none_iff.1 (Config.reads_of_ofFields hc).1).2.2.1
  refine ⟨fun hgiven => readResolve_arguments hgiven hdepth, ?_, fun hlenient => ?_,
    fun hagree key inside h => ?_, fun h => ?_⟩
  · exact agree_of_shows hreport (answer_shows (Config.ofFields_lenient hc true) hread hrequest)
  · obtain hsame | ⟨hstrict, -⟩ := hsame
    · exact agree_of_shows (hsame ▸ hreport) hanswer
    · cases hlenient.symm.trans hstrict
  · exact (hagree.2.2 (h ▸ .inr rfl)).1
  · obtain hsame | ⟨-, key, inside, hmissing⟩ := hsame
    · exact agree_of_shows (hsame ▸ hreport) hanswer
    · -- both fail, though not for the same reason: the lenient run fails later on
      rw [hmissing] at hanswer
      exact agree_of_shows (shows_failed hreport (h key inside hanswer) _) hanswer

/-! ### A lenient and a strict setting -/

/-- Characters of the basic alphabet as bytes. -/
def bytes (text : Text) : List UInt8 := text.map fun ch => ch.toNat.toUInt8

lemma exists_of_toOption_map {ε α β : Type} {read : Except ε α} {parts : α → β} {result : β}
    (h : read.toOption.map parts = some result) : ∃ a, read = .ok a ∧ parts a = result := by
  cases read with
  | error fault => cases h
  | ok a => exact ⟨a, rfl, Option.some.inj h⟩

/-- A body is for a text if its parts are. -/
lemma exists_isFor {body : List UInt8}
    (h : (ResolveRequest.read body).toOption.map
        (fun request =>
          (request.overrides, request.text, request.properties, request.withEnvironment))
      = some (.none, text, ⟨given.map fun (key, value) => (key, some value)⟩, withEnvironment)) :
    ∃ request, ResolveRequest.read body = .ok request ∧
      IsFor request text given withEnvironment := by
  obtain ⟨request, hread, hparts⟩ := exists_of_toOption_map h
  simp only [Prod.mk.injEq] at hparts
  obtain ⟨hoverrides, htext, hproperties, henvironment⟩ := hparts
  exact ⟨request, hread, hoverrides, htext, hproperties ▸ List.Perm.refl _, henvironment⟩

/-- The text `${a}` with a value for `a`. -/
def filledBody : List UInt8 :=
  bytes "\x7b\"text\": \"$\x7ba\x7d\", \"properties\": \x7b\"a\": \"1\"\x7d\x7d".toList

lemma default_config : Settings.default.config .none = .ok Config.braces := rfl

lemma exists_isFor_filledBody :
    ∃ request, ResolveRequest.read filledBody = .ok request ∧
      IsFor request (Config.braces.enclose ['a']) [(['a'], ['1'])] false :=
  exists_isFor (by decide +kernel)

/-- Under the settings by default program and server agree on `${a}`. -/
theorem default_settings_agree :
    Settings.default.config .none = .ok Config.braces ∧
    ([(['a'], ['1'])].map (Prod.fst : Text × Text → Text)).Nodup ∧
    (∃ request, ResolveRequest.read filledBody = .ok request ∧
      IsFor request (Config.braces.enclose ['a']) [(['a'], ['1'])] false) ∧
    Agree
      (runResolve Config.nestingAllowed ⟨.default, .empty, fun _ => .nothing, []⟩
        (.ofSettings .default (Config.braces.enclose ['a']) [(['a'], ['1'])] false))
      ((after Config.nestingAllowed .default []).handle .empty (resolveRequest filledBody)).1 := by
  obtain ⟨request, hread, hrequest⟩ := exists_isFor_filledBody
  refine ⟨default_config, by decide, ⟨request, hread, hrequest⟩, ?_⟩
  exact (agree_unless_missing .default Config.braces default_config Config.nestingAllowed [] .empty
    (fun _ => .nothing) [] (Config.braces.enclose ['a']) [(['a'], ['1'])] (by decide) false
    filledBody request hread hrequest).2.2.1 rfl

/-- The settings where placeholders without a value do not stay. -/
def strictSettings : Settings := Settings.default.change .lenient (.bool false)

/-- The text `${m}` without any value. -/
def missingBody : List UInt8 := bytes "\x7b\"text\": \"$\x7bm\x7d\"\x7d".toList

/-- Under strict settings the program leaves `${m}` as it is and the server refuses it. -/
theorem strict_settings_differ :
    strictSettings.config .none = .ok (Config.braces.withPolicy false) ∧
    (∃ request, ResolveRequest.read missingBody = .ok request ∧
      IsFor request (Config.braces.enclose ['m']) [] false) ∧
    ¬Agree
      (runResolve Config.nestingAllowed ⟨strictSettings, .empty, fun _ => .nothing, []⟩
        (.ofSettings strictSettings (Config.braces.enclose ['m']) [] false))
      ((after Config.nestingAllowed strictSettings []).handle .empty
        (resolveRequest missingBody)).1 := by
  refine ⟨rfl, exists_isFor (by decide +kernel), fun h => ?_⟩
  have hstatus : ((after Config.nestingAllowed strictSettings []).handle .empty
      (resolveRequest missingBody)).1.status? = some 422 := by decide +kernel
  have hcode : (runResolve Config.nestingAllowed ⟨strictSettings, .empty, fun _ => .nothing, []⟩
      (.ofSettings strictSettings (Config.braces.enclose ['m']) [] false)).exitCode? = some 0 := by
    decide +kernel
  cases hcode.symm.trans (h.2.2 (.inr hstatus)).1

end ConfigText
