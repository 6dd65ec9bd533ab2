import ConfigText.Chain
import ConfigText.Placeholder
import ConfigText.Server.Request
import ConfigText.Settings

/-!
The server: it answers what placeholders a text holds and what the text resolves to. The
configuration for requests that ask for no syntax of their own is made from the settings once and
kept. Of what is said of a body that does not fit, the part of the body that a complaint is about is
left out.
-/

namespace ConfigText

structure Server where
  settings : Settings
  /-- The configuration made from the settings, once there is one. -/
  kept : Option Config

namespace Server

inductive Answer
  | json (status : Nat) (body : Json)
  /-- Settings from which no configuration can be made. -/
  | broken (fault : ConfigFault)
  /-- What is to be said cannot be sent. -/
  | unwritable (fault : Value.SendFault)
  /-- Resolving was cut off. -/
  | exhausted

def start (settings : Settings) : Server := ⟨settings, none⟩

/-! ### Bodies of answers -/

def detail (status : Nat) (body : Json) : Answer := .json status (.ofMembers [("detail", body)])

def notFound : Answer := detail 404 (.text "Not Found".toList)

def wrongMethod : Answer := detail 405 (.text "Method Not Allowed".toList)

def placeStepJson : PlaceStep → Json
  | .field name => .text name
  | .index i => .int i

def complaintJson (complaint : Complaint) : Json :=
  .ofMembers [("type", .text complaint.mismatch.code),
    ("loc", .array (complaint.place.map placeStepJson)),
    ("msg", .text complaint.mismatch.message)]

/-- A body is refused with all complaints, of which each says what is wrong and where. What they are
about has to be such that it could be sent with them. -/
def refused : BodyFault → Answer
  | .objections list =>
    match Value.sendFault? (list.map Objection.subject) with
    | some fault => .unwritable fault
    | none => detail 422 (.array (list.map fun objection => complaintJson objection.complaint))
  | .unreadable => detail 400 (.text "There was an error parsing the body".toList)

/-- What is said of an error: its kind, its message and what belongs to it. -/
def errorDetail (status : Nat) (kind : String) (message : Text)
    (more : List (String × Json)) : Answer :=
  detail status (.ofMembers ([("error", .text kind.toList), ("message", .text message)] ++ more))

def failed (failure : Failure) : Answer :=
  match failure with
  | .circular key => errorDetail 409 "circular_reference" failure.message [("key", .text key)]
  | .unresolvable key _ =>
    errorDetail 422 "unresolvable_placeholder" failure.message [("key", .text key)]
  | .tooDeep limit _ =>
    errorDetail 422 "max_depth_exceeded" failure.message [("max_depth", .int limit)]

def placeholderJson (p : Placeholder) : Json :=
  .ofMembers [("name", .text p.name), ("key", .text p.key), ("default", .ofText? p.default),
    ("syntax", .text p.whole), ("start_pos", .int p.start), ("end_pos", .int p.stop),
    ("nested", .bool p.nested)]

def validationJson (c : Config) (v : Validation) : Json :=
  .ofMembers [("valid", .bool v.valid), ("errors", .ofTexts (v.errors c)),
    ("warnings", .ofTexts v.warnings)]

/-! ### Answers -/

/-- The settings in use. -/
def health (settings : Settings) : Answer :=
  let shown : List Setting := [.opener, .closer, .separator, .lenient, .maxDepth]
  match Value.sendFault? (shown.map settings.get) with
  | some fault => .unwritable fault
  | none =>
    let config := shown.map fun setting =>
      (setting.name, Json.ofValue (settings.get setting).published)
    .json 200 (.ofMembers [("status", .text "ok".toList), ("service", .text "propsmith".toList),
      ("config", .object config)])

/-- The placeholders of a text and what is wrong with it. -/
def parseAnswer (c : Config) (text : Text) : Answer :=
  .json 200 (.ofMembers [("placeholders", .array ((c.placeholders text).map placeholderJson)),
    ("validation", validationJson c (c.validate text))])

/-- Where a request's values come from: its properties, and the environment behind them if it asks
for that. -/
def chainOf (request : ResolveRequest) : Chain :=
  let properties : Properties :=
    ⟨request.properties.entries.map fun (key, value) => (.text key, value.elim .null .text)⟩
  let own := Chain.empty.addLast ⟨"request".toList, .table properties, by decide⟩
  if request.withEnvironment then
    own.addLast ⟨Source.environmentName, .process, Source.environmentName_ne⟩
  else own

/-- The text resolved, and the placeholders that are in it afterwards. There is no answer where the
run nests deeper than `bound`. -/
def resolveAnswer (bound : Nat) (c : Config) (env : Environment) (request : ResolveRequest) :
    Answer :=
  match (c.resolveWithin ((chainOf request).lookup env) bound request.text).outcome with
  | .done resolved =>
    .json 200 (.ofMembers [("original", .text request.text), ("resolved", .text resolved),
      ("unresolved", .ofTexts ((c.placeholders resolved).map Placeholder.whole))])
  | .failed failure => failed failure
  | .exhausted => .exhausted

/-- The answer with the configuration for a request. One that asks for no syntax gets the kept
configuration; faults of another are told to the caller. -/
def withConfig (server : Server) (overrides : Override) (answer : Config → Answer) :
    Answer × Server :=
  if overrides = .none then
    match server.kept with
    | some c => (answer c, server)
    | none =>
      match server.settings.config .none with
      | .ok c => (answer c, { server with kept := some c })
      | .error fault => (.broken fault, server)
  else
    match server.settings.config overrides.toFields with
    | .ok c => (answer c, server)
    | .error fault =>
      if fault.refusesMarks then (errorDetail 400 "invalid_config" fault.message [], server)
      else (.broken fault, server)

/-- What is served. -/
inductive Route
  | health
  | parse
  | resolve

/-- What is served at a path. A line break at its end does not count. -/
def Route.ofPath? (path : Text) : Option Route :=
  let path := if path.getLast? = some '\n' then path.dropLast else path
  if path = "/api/health".toList then some .health
  else if path = "/api/placeholders/parse".toList then some .parse
  else if path = "/api/placeholders/resolve".toList then some .resolve
  else none

def Route.method : Route → Text
  | .health => "GET".toList
  | .parse | .resolve => "POST".toList

/-- The answer to a request, in an environment, and the server after it, where a run is cut off if
it nests deeper than `bound`. -/
def handleWithin (bound : Nat) (env : Environment) (server : Server) (request : Request) :
    Answer × Server :=
  match Route.ofPath? request.path with
  | none => (notFound, server)
  | some route =>
    if request.method != route.method then (wrongMethod, server)
    else
      match route with
      | .health => (health server.settings, server)
      | .parse =>
        match ParseRequest.read request.body with
        | .error fault => (refused fault, server)
        | .ok parse => server.withConfig parse.overrides fun c => parseAnswer c parse.text
      | .resolve =>
        match ResolveRequest.read request.body with
        | .error fault => (refused fault, server)
        | .ok resolve =>
          server.withConfig resolve.overrides fun c => resolveAnswer bound c env resolve

/-- The answer to a request, in an environment, and the server after it. -/
def handle (env : Environment) (server : Server) (request : Request) : Answer × Server :=
  handleWithin Config.nestingAllowed env server request

end Server
end ConfigText
