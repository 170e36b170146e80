import ApiOutline.Swagger.Document
import ApiOutline.Yaml.Printer

/-!
Swagger documents as values, as JSON and as YAML.
-/

namespace ApiOutline.Swagger

/-- An entry, unless the text is empty. -/
def textEntry (key text : String) : List (String × Value) :=
  if text.isEmpty then [] else [(key, .string text)]

/-- An entry, if there is a text. -/
def optionEntry (key : String) : Option String → List (String × Value)
  | none => []
  | some text => [(key, .string text)]

/-- An entry, unless the list is empty. -/
def listEntry (key : String) (texts : List String) : List (String × Value) :=
  if texts.isEmpty then [] else [(key, .ofStrings texts)]

/-- How a schema names a definition. -/
def definitionRef (definition : String) : String := "#/definitions/" ++ definition

namespace Schema

mutual

/-- A schema as a value.  What a schema does not say is left out. -/
def toValue : Schema → Value
  | ⟨type, reference, title, description, required, properties, items⟩ =>
    .object (optionEntry "type" (type.map (·.name)) ++
      optionEntry "$ref" (reference.map definitionRef) ++ optionEntry "title" title ++
      textEntry "description" description ++ listEntry "required" required ++
      propertiesEntry properties ++ itemsEntry items)

/-- The entry of the properties, if there are any. -/
def propertiesEntry : List (String × Schema) → List (String × Value)
  | [] => []
  | (name, schema) :: rest =>
    [("properties", .object ((name, toValue schema) :: propertyEntries rest))]

/-- Properties as entries. -/
def propertyEntries : List (String × Schema) → List (String × Value)
  | [] => []
  | (name, schema) :: rest => (name, toValue schema) :: propertyEntries rest

/-- The entry of the element, if there is one. -/
def itemsEntry : Option Schema → List (String × Value)
  | none => []
  | some schema => [("items", toValue schema)]

end

end Schema

def Parameter.toValue (p : Parameter) : Value :=
  let described (location : String) : List (String × Value) :=
    [("name", .string p.name), ("in", .string location), ("description", .string p.description),
     ("required", .bool p.required)]
  match p.kind with
  | .query type items =>
    .object (described "query" ++ [("type", .string type.name)] ++
      match items with
      | none => []
      | some element => [("items", (Schema.ofType element).toValue)])
  | .body definition =>
    .object (described "body" ++ [("schema", (Schema.refer definition).toValue)])

def Operation.toValue (o : Operation) : Value :=
  .object [("tags", .ofStrings [o.tag]), ("summary", .string o.summary),
    ("description", .string o.description), ("operationId", .string o.operationId),
    ("consumes", .ofStrings ["application/json"]), ("produces", .ofStrings [o.produces]),
    ("parameters", .array (o.parameters.map Parameter.toValue)),
    ("responses", .object [("200", .object [("description", .string "OK"),
      ("schema", o.response.toValue)])])]

namespace Document

def toValue (doc : Document) : Value :=
  .object [("swagger", .string "2.0"),
    ("info", .object [("title", .string doc.title), ("description", .string doc.description),
      ("version", .string doc.version)]),
    ("host", .string doc.host), ("basePath", .string doc.basePath),
    ("schemes", .ofStrings ["https"]),
    ("tags", .array (doc.tags.map fun (name, description) =>
      .object [("name", .string name), ("description", .string description)])),
    ("paths", .object (doc.paths.entries.map fun (path, operations) =>
      (path, .object (operations.map fun (verb, operation) => (verb.name, operation.toValue))))),
    ("definitions", .object (doc.definitions.entries.map fun (name, schema) =>
      (name, schema.toValue)))]

def toJson (doc : Document) : String := doc.toValue.toJson

/-- The comment that a document as YAML starts with. -/
def yamlHeader : String := "# Code generated by apimodel. DO NOT EDIT.\n"

def toYaml (doc : Document) : String := yamlHeader ++ Yaml.render doc.toValue

end Document

end ApiOutline.Swagger
