import ApiOutline.Field.Basic
import ApiOutline.Kit.Response
import ApiOutline.SortedMap

/-!
Schemas: the shape of the values that a document describes.

The properties of an object are kept in the order of their names, and a later property takes the
place of an earlier one of its name; the names that have to be present are listed in the order in
which they were first asked for.
-/

namespace ApiOutline.Swagger

open TypeToken (SchemaType schemaType)

/-- A schema. -/
structure Schema where
  /-- The type, if it is known. -/
  type : Option SchemaType := none
  /-- The definition that is meant, if the schema only names one. -/
  reference : Option String := none
  /-- The name of the object, if it has one. -/
  title : Option String := none
  /-- The description; empty for none. -/
  description : String := ""
  /-- The names of the properties that have to be present, each once. -/
  required : List String := []
  /-- The properties, in the order of their names. -/
  properties : List (String × Schema) := []
  /-- The element of an array. -/
  items : Option Schema := none
  deriving Repr, Inhabited

namespace Schema

/-- A schema of which only the type is known. -/
def ofType (type : SchemaType) : Schema := { type := some type }

/-- A schema that only names a definition. -/
def refer (definition : String) : Schema := { reference := some definition }

def setProperty (s : Schema) (name : String) (property : Schema) (required : Bool) : Schema :=
  { s with
    required :=
      if required && !s.required.contains name then s.required ++ [name] else s.required
    properties := Entries.insert name property s.properties }

def property? (s : Schema) (name : String) : Option Schema := s.properties.lookup name

mutual

def ofField : Field → Schema
  | ⟨d, children⟩ =>
    if d.isArray then
      let element :=
        if d.isNested then setFields (ofType .object) children
        else ofType (schemaType d.elementType)
      { ofType .array with
        description := d.comment
        items := some { element with title := d.objectName? } }
    else if d.isNested then
      { setFields (ofType .object) children with
        title := d.objectName?
        description := d.comment }
    else { ofType (schemaType d.resolvedType) with description := d.comment }

/-- Sets a property for each field. -/
def setFields (s : Schema) : List Field → Schema
  | [] => s
  | field :: rest => setFields (s.setProperty field.name (ofField field) field.required) rest

end

/-- The schema of an object with some fields. -/
def ofFields (fields : List Field) : Schema := setFields (ofType .object) fields

/-- The schema of a response that a handler declares. -/
def ofResponse (r : Kit.Response) : Schema :=
  let element :=
    if r.objectName.isEmpty then ofType (schemaType r.valueType)
    else { ofType .object with title := some r.objectName }
  if r.isArray then { ofType .array with description := r.comment, items := some element }
  else { element with description := r.comment }

/-- The schema of an object with the responses that a handler declares. -/
def ofResponses (responses : List Kit.Response) : Schema :=
  responses.foldl (fun s r => s.setProperty r.name (ofResponse r) true) (ofType .object)

end Schema

end ApiOutline.Swagger
