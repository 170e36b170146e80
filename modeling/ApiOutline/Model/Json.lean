import ApiOutline.Model
import ApiOutline.Value.Basic

/-!
Models as plain values, and back.

Every record is written as an object with one entry for each of its parts.  Reading an object asks
for every part but the authentication of an endpoint, and passes over entries it does not know.  A
record may also be read from an array that holds all of its parts, in the order in which they are
written.
-/

namespace ApiOutline

/-! ## Writing -/

/-- The entries of a field's declaration. -/
def FieldDecl.entries (d : FieldDecl) : List (String × Value) :=
  [("name", .string d.name), ("declared_type", .string d.declaredType),
   ("resolved_type", .string d.resolvedType), ("is_array", .bool d.isArray),
   ("is_nested", .bool d.isNested), ("required", .bool d.required),
   ("validation_rule", .string d.rule), ("comment", .string d.comment), ("line", .ofNat d.line)]

mutual

def Field.toValue : Field → Value
  | ⟨decl, children⟩ =>
    .object (decl.entries ++ [("children", .array (Field.toValues children))])

def Field.toValues : List Field → List Value
  | [] => []
  | field :: rest => Field.toValue field :: Field.toValues rest

end

def Endpoint.toValue (e : Endpoint) : Value :=
  .object [("name", .string e.name), ("group", .string e.group), ("method", .string e.method.name),
    ("auth", .ofOption e.auth), ("protocol", .string e.protocol.name),
    ("comment", .string e.comment), ("request_fields", .array (Field.toValues e.requestFields)),
    ("response_fields", .array (Field.toValues e.responseFields)),
    ("aliases", .ofStrings e.aliases), ("line", .ofNat e.line)]

def Group.toValue (g : Group) : Value :=
  .object [("name", .string g.name), ("comment", .string g.comment),
    ("endpoints", .array (g.endpoints.map Endpoint.toValue)), ("line", .ofNat g.line)]

def Envelope.toValue (e : Envelope) : Value :=
  .object [("fields", .ofStrings e.fields), ("data_field", .string e.dataField)]

def Settings.toValue (s : Settings) : Value :=
  .object [("title", .string s.title), ("description", .string s.description),
    ("api_server", .string s.apiServer), ("server_version", .string s.serverVersion),
    ("auth_map", .object (s.authMap.entries.map fun (tag, name) => (tag, .string name))),
    ("response_envelope", s.envelope.toValue)]

def Model.toValue (m : Model) : Value :=
  .object [("prefix", .string m.routePrefix), ("version", .string m.version),
    ("groups", .array (m.groups.map Group.toValue)), ("meta", m.settings.toValue)]

/-! ## Reading -/

/-- The part of a record under a key, if it is there and has a reading. -/
def part? {α : Type} (entries : List (String × Value)) (key : String) (read : Value → Option α) :
    Option α :=
  (entries.lookup key).bind read

/-- The parts of a record under their keys: the entries of an object, or the items of an array of
just as many items. -/
def parts? (keys : List String) : Value → Option (List (String × Value))
  | .object entries => some entries
  | .array items => if items.length = keys.length then some (keys.zip items) else none
  | _ => none

/-- The name of a choice: a text, or the one key of an object that has nothing under it. -/
def choice? : Value → Option String
  | .string name | .object [(name, .null)] => some name
  | _ => none

def Field.keys : List String :=
  ["name", "declared_type", "resolved_type", "is_array", "is_nested", "required",
   "validation_rule", "comment", "line", "children"]

/-- Reads the declaration of a field from the parts of a record. -/
def FieldDecl.ofEntries? (entries : List (String × Value)) : Option FieldDecl := do
  some {
    name := ← part? entries "name" Value.string?
    declaredType := ← part? entries "declared_type" Value.string?
    resolvedType := ← part? entries "resolved_type" Value.string?
    isArray := ← part? entries "is_array" Value.bool?
    isNested := ← part? entries "is_nested" Value.bool?
    required := ← part? entries "required" Value.bool?
    rule := ← part? entries "validation_rule" Value.string?
    comment := ← part? entries "comment" Value.string?
    line := ← part? entries "line" Value.word? }

mutual

def Field.ofValue? : Value → Option Field
  | .object entries => do
    let decl ← FieldDecl.ofEntries? entries
    let children ← Field.childrenIn? entries
    some ⟨decl, children⟩
  | .array items => do
    let parts ← parts? Field.keys (.array items)
    let decl ← FieldDecl.ofEntries? parts
    let children ← Field.childrenLast? items
    some ⟨decl, children⟩
  | _ => none

/-- Reads the children of a field from the entries of its record. -/
def Field.childrenIn? : List (String × Value) → Option (List Field)
  | [] => none
  | (key, value) :: rest =>
    if key = "children" then Field.ofArray? value else Field.childrenIn? rest

/-- Reads the children of a field from the last of its parts. -/
def Field.childrenLast? : List Value → Option (List Field)
  | [] => none
  | [value] => Field.ofArray? value
  | _ :: rest => Field.childrenLast? rest

def Field.ofArray? : Value → Option (List Field)
  | .array items => Field.ofValues? items
  | _ => none

/-- Reads fields, one from each value. -/
def Field.ofValues? : List Value → Option (List Field)
  | [] => some []
  | value :: rest => do
    let field ← Field.ofValue? value
    let fields ← Field.ofValues? rest
    some (field :: fields)

end

/-- Reads the authentication of an endpoint, which may be missing. -/
def Endpoint.authOf? (entries : List (String × Value)) : Option (Option String) :=
  match entries.lookup "auth" with
  | none | some .null => some none
  | some value => value.string?.map some

def Endpoint.ofValue? (v : Value) : Option Endpoint := do
  let entries ← parts? ["name", "group", "method", "auth", "protocol", "comment", "request_fields",
    "response_fields", "aliases", "line"] v
  some {
    name := ← part? entries "name" Value.string?
    group := ← part? entries "group" Value.string?
    method := ← part? entries "method" fun v => (choice? v).bind Method.ofName?
    auth := ← Endpoint.authOf? entries
    protocol := ← part? entries "protocol" fun v => (choice? v).bind Protocol.ofName?
    comment := ← part? entries "comment" Value.string?
    requestFields := ← part? entries "request_fields" Field.ofArray?
    responseFields := ← part? entries "response_fields" Field.ofArray?
    aliases := ← part? entries "aliases" (Value.list? Value.string?)
    line := ← part? entries "line" Value.word? }

def Group.ofValue? (v : Value) : Option Group := do
  let entries ← parts? ["name", "comment", "endpoints", "line"] v
  some {
    name := ← part? entries "name" Value.string?
    comment := ← part? entries "comment" Value.string?
    endpoints := ← part? entries "endpoints" (Value.list? Endpoint.ofValue?)
    line := ← part? entries "line" Value.word? }

def Envelope.ofValue? (v : Value) : Option Envelope := do
  let entries ← parts? ["fields", "data_field"] v
  some {
    fields := ← part? entries "fields" (Value.list? Value.string?)
    dataField := ← part? entries "data_field" Value.string? }

/-- Reads a map of texts. -/
def textMap? (v : Value) : Option (SortedMap String) := do
  let entries ← v.entries?
  let texts ← entries.mapM fun (key, value) => value.string?.map (key, ·)
  some (SortedMap.ofList texts)

def Settings.ofValue? (v : Value) : Option Settings := do
  let entries ← parts? ["title", "description", "api_server", "server_version", "auth_map",
    "response_envelope"] v
  some {
    title := ← part? entries "title" Value.string?
    description := ← part? entries "description" Value.string?
    apiServer := ← part? entries "api_server" Value.string?
    serverVersion := ← part? entries "server_version" Value.string?
    authMap := ← part? entries "auth_map" textMap?
    envelope := ← part? entries "response_envelope" Envelope.ofValue? }

def Model.ofValue? (v : Value) : Option Model := do
  let entries ← parts? ["prefix", "version", "groups", "meta"] v
  some {
    routePrefix := ← part? entries "prefix" Value.string?
    version := ← part? entries "version" Value.string?
    groups := ← part? entries "groups" (Value.list? Group.ofValue?)
    settings := ← part? entries "meta" Settings.ofValue? }

end ApiOutline
