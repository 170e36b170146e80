import ApiOutline.Endpoint.Basic
import ApiOutline.Value.Basic

/-!
Documentation trees: the fields of a request or a response as written documentation shows them.

Every field has a node, in the order of the declarations, also where two fields share a name.  An
array has a node of its own around the node of its element.
-/

namespace ApiOutline

/-- A node of a documentation tree. -/
structure DocNode where
  /-- The name. -/
  name : String
  /-- The label of the type. -/
  label : String
  /-- The description; empty for none. -/
  description : String := ""
  /-- The names of the properties that have to be present, each once. -/
  required : List String := []
  /-- The properties, in the order of their declaration. -/
  properties : List DocNode := []
  /-- The element, if the node is an array. -/
  arrayItem : Option DocNode := none
  deriving Repr, Inhabited

namespace DocNode

/-- An object without properties. -/
def object (name description : String) : DocNode :=
  { name, label := TypeToken.DocLabel.object.name, description }

/-- Adds a property after the others. -/
def push (node property : DocNode) (required : Bool) : DocNode :=
  { node with
    required :=
      if required && !node.required.contains property.name then node.required ++ [property.name]
      else node.required
    properties := node.properties ++ [property] }

/-- The first property of a name. -/
def property? (node : DocNode) (name : String) : Option DocNode :=
  node.properties.find? (·.name == name)

def isArray (node : DocNode) : Bool := node.arrayItem.isSome

/-- Whether a property of a name has to be present. -/
def isRequired (node : DocNode) (name : String) : Bool := node.required.contains name

mutual

def toValue : DocNode → Value
  | ⟨name, label, description, required, properties, arrayItem⟩ =>
    .object ([("name", .string name), ("node_type", .string label),
      ("description", .string description), ("required", .ofStrings required),
      ("properties", .array (toValues properties))] ++ itemEntry arrayItem)

def toValues : List DocNode → List Value
  | [] => []
  | node :: rest => toValue node :: toValues rest

def itemEntry : Option DocNode → List (String × Value)
  | none => []
  | some item => [("array_item", toValue item)]

end

end DocNode

namespace Field

mutual

/-- The documentation of a field. -/
def docNode : Field → DocNode
  | ⟨d, children⟩ =>
    let leaf : DocNode :=
      { name := d.name, label := (TypeToken.docLabel d.elementType).name, description := d.comment }
    let element := pushDocs leaf children
    if d.isArray then { leaf with arrayItem := some element } else element

/-- Adds the documentation of fields to a node. -/
def pushDocs (node : DocNode) : List Field → DocNode
  | [] => node
  | field :: rest => pushDocs (node.push (docNode field) field.required) rest

end

/-- The documentation of fields as one object. -/
def docModel (name description : String) (fields : List Field) : DocNode :=
  pushDocs (DocNode.object name description) fields

end Field

namespace Endpoint

def requestDoc (e : Endpoint) : DocNode :=
  Field.docModel e.requestModelName e.comment e.requestFields

def responseDoc (e : Endpoint) : DocNode :=
  Field.docModel e.responseModelName e.comment e.responseFields

end Endpoint

end ApiOutline
