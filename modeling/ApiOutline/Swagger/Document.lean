import ApiOutline.Fault
import ApiOutline.Model
import ApiOutline.Swagger.Schema

/-!
Swagger documents, and how one is built from a model.

Endpoints are added one by one.  Each has a path of its own and two definitions, one for its request
and one for its response; a path or a definition that is there already is a conflict.  An endpoint
without response fields takes them from a source outside of the model, if there is one.
-/

namespace ApiOutline.Swagger

/-- Where a parameter is sent, and what is known of it there. -/
inductive ParameterKind where
  /-- In the query: a type, and the type of an element if the field is an array. -/
  | query (type : TypeToken.SchemaType) (items : Option TypeToken.SchemaType)
  /-- In the body: the definition of the request. -/
  | body (definition : String)
  deriving DecidableEq, Repr

/-- A parameter of an operation. -/
structure Parameter where
  /-- The name. -/
  name : String
  /-- The description; empty for none. -/
  description : String
  /-- Whether the parameter has to be sent. -/
  required : Bool
  /-- Where it is sent. -/
  kind : ParameterKind
  deriving DecidableEq, Repr

/-- What can be done along a path with a verb. -/
structure Operation where
  /-- The group of the endpoint. -/
  tag : String
  /-- The short name. -/
  summary : String
  /-- The description; empty for none. -/
  description : String
  /-- The name among all groups. -/
  operationId : String
  /-- The media type of the response. -/
  produces : String
  /-- The parameters. -/
  parameters : List Parameter
  /-- The schema of a successful response. -/
  response : Schema
  deriving Repr, Inhabited

/-- A document. -/
structure Document where
  /-- The title of the API. -/
  title : String
  /-- The description of the API. -/
  description : String
  /-- The version of the server. -/
  version : String
  /-- The host that serves the API. -/
  host : String
  /-- What every path starts with. -/
  basePath : String
  /-- The groups with their comments. -/
  tags : List (String × String)
  /-- The operations of each path. -/
  paths : SortedMap (List (Verb × Operation)) := .empty
  /-- The definitions. -/
  definitions : SortedMap Schema := .empty
  deriving Inhabited

namespace Document

/-- A document without paths and definitions. -/
def ofModel (m : Model) : Document where
  title := m.settings.title
  description := m.settings.description
  version := m.settings.serverVersion
  host := m.settings.apiServer
  basePath := m.basePath
  tags := m.groups.map fun g => (g.name, g.comment)

/-- The operation of a path and a verb. -/
def operation? (doc : Document) (path : String) (verb : Verb) : Option Operation :=
  (doc.paths.get? path).bind (·.lookup verb)

def define (doc : Document) (name : String) (schema : Schema) : Except Fault Document :=
  if doc.definitions.contains name then .error (.conflict .definition name)
  else .ok { doc with definitions := doc.definitions.insert name schema }

end Document

/-- The query parameter of a field. -/
def queryParameter (field : Field) : Parameter where
  name := field.name
  description := field.comment
  required := field.required
  kind := .query (TypeToken.schemaType field.resolvedType)
    (if field.isArray then some (TypeToken.schemaType field.elementType) else none)

/-- The parameters of an endpoint: in the body of a `post`, in the query of a `get`. -/
def parameters (e : Endpoint) : Verb → List Parameter
  | .get => e.requestFields.map queryParameter
  | .post => [⟨"body", e.comment, true, .body e.requestModelName⟩]

/-- A payload in its envelope: under the key for data, beside the other keys, whose values are not
described. -/
def wrap (envelope : Envelope) (payload : Schema) : Schema :=
  let wrapped := envelope.fields.foldl (fun s key =>
    s.setProperty key (if key = envelope.dataField then payload else {}) true)
    (Schema.ofType .object)
  if envelope.fields.contains envelope.dataField then wrapped
  else wrapped.setProperty envelope.dataField payload true

/-- The schema of a successful response: raw responses come without the envelope. -/
def responseSchema (envelope : Envelope) (e : Endpoint) : Schema :=
  let payload := Schema.refer e.responseModelName
  if e.protocol.isRawResponse then payload else wrap envelope payload

/-- The operation of an endpoint for a verb. -/
def operation (envelope : Envelope) (e : Endpoint) (verb : Verb) : Operation where
  tag := e.group
  summary := e.apiName
  description := e.comment
  operationId := e.fullName
  produces := e.protocol.produces
  parameters := parameters e verb
  response := responseSchema envelope e

universe u

/-- Where the responses of endpoints without response fields come from, and what asking for them
changes. -/
abbrev ResponseSource (σ : Type u) := Endpoint → σ → Except Fault (List Kit.Response) × σ

variable {σ : Type u}

/-- The source that knows of no responses. -/
def noResponses : ResponseSource Unit := fun _ s => (.ok [], s)

/-- The definition of an endpoint's response. -/
def payload (source : ResponseSource σ) (e : Endpoint) (s : σ) : Except Fault Schema × σ :=
  if e.responseFields.isEmpty then
    let (responses, s) := source e s
    (responses.map Schema.ofResponses, s)
  else (.ok (Schema.ofFields e.responseFields), s)

/-- Adds an endpoint: the definition of its request, that of its response, and its path. -/
def addEndpoint (source : ResponseSource σ) (envelope : Envelope) (doc : Document) (e : Endpoint)
    (s : σ) : Except Fault Document × σ :=
  if doc.paths.contains e.groupPath then (.error (.conflict .path e.groupPath), s)
  else
    let request := { Schema.ofFields e.requestFields with description := e.comment }
    match doc.define e.requestModelName request with
    | .error fault => (.error fault, s)
    | .ok doc =>
      match payload source e s with
      | (.error fault, s) => (.error fault, s)
      | (.ok response, s) =>
        match doc.define e.responseModelName response with
        | .error fault => (.error fault, s)
        | .ok doc =>
          let operations := e.method.verbs.map fun verb => (verb, operation envelope e verb)
          (.ok { doc with paths := doc.paths.insert e.groupPath operations }, s)

/-- Adds endpoints in order, up to the first fault. -/
def addEndpoints (source : ResponseSource σ) (envelope : Envelope) :
    List Endpoint → Document → σ → Except Fault Document × σ
  | [], doc, s => (.ok doc, s)
  | e :: rest, doc, s =>
    match addEndpoint source envelope doc e s with
    | (.error fault, s) => (.error fault, s)
    | (.ok doc, s) => addEndpoints source envelope rest doc s

/-- The document of a model, with responses from a source. -/
def build (source : ResponseSource σ) (m : Model) (s : σ) : Except Fault Document × σ :=
  addEndpoints source m.settings.envelope m.endpoints (Document.ofModel m) s

/-- The document of a model on its own. -/
def document (m : Model) : Except Fault Document := (build noResponses m ()).1

end ApiOutline.Swagger
